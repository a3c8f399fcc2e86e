import Verdict.Proofs.Failure.Causes
import Verdict.Proofs.Number.Numeral

/-!
# Printable messages

A message shows parts of what the user wrote between quotation marks, and the quoted form of a text
has printable characters only. So have the other words of a message, and there is no line break in
it, nor any other character that would not be seen.
-/

namespace Verdict

open Text

namespace Text

/-! ### Printable characters -/

/-- A character is printable if it lies in none of the ranges without a visible form. -/
theorem isPrintable_iff {c : Char} :
  isPrintable c = true ↔ ∀ r ∈ unprintableRanges, ¬ (r.1 ≤ c.toNat ∧ c.toNat ≤ r.2)
  := by
  have hranges : ∀ r ∈ unprintableRanges, r = (0x0, 0x1F) ∨ 0x7F ≤ r.1 := by decide +kernel
  have hcontrol : (0x0, 0x1F) ∈ unprintableRanges := by decide +kernel
  rw [isPrintable]
  by_cases hascii : c.toNat < 0x7F
  · rw [if_pos hascii, decide_eq_true_eq]
    constructor
    · intro h r hr hmem
      rcases hranges r hr with rfl | hr
      · omega
      · omega
    · intro h
      have hnot := h _ hcontrol
      omega
  · rw [if_neg hascii]
    simp

/-- The character is one of ASCII with a visible form or a letter of a European script. -/
def isCommon (c : Char) : Bool :=
  (0x20 ≤ c.toNat && c.toNat < 0x7F) || (0xAE ≤ c.toNat && c.toNat ≤ 0x377)

theorem isPrintable_of_isCommon {c : Char} (h : isCommon c = true) :
  isPrintable c = true
  := by
  have hranges : ∀ r ∈ unprintableRanges, r.2 < 0x20 ∨ 0x7F ≤ r.1 ∧ r.2 < 0xAE ∨ 0x377 < r.1 := by
    decide +kernel
  simp only [isCommon, Bool.or_eq_true, Bool.and_eq_true, decide_eq_true_eq] at h
  rw [isPrintable_iff]
  intro r hr hmem
  rcases hranges r hr with hlow | hmiddle | hhigh
  all_goals omega

/-- White space other than the space of ASCII has no visible form. -/
theorem isPrintable_eq_false_of_isBlank {c : Char} (h : isBlank c = true) (hspace : c ≠ ' ') :
  isPrintable c = false
  := by
  have hranges : ∀ b ∈ blankRanges, b = (0x1C, 0x20) ∨
      ∃ r ∈ unprintableRanges, r.1 ≤ b.1 ∧ b.2 ≤ r.2 := by decide +kernel
  have hcontrol : (0x0, 0x1F) ∈ unprintableRanges := by decide +kernel
  have hne : c.toNat ≠ 0x20 := by
    intro hc
    apply hspace
    apply Char.toNat_inj.mp hc
  rw [isBlank, List.any_eq_true] at h
  obtain ⟨b, hb, hmem⟩ := h
  simp only [Bool.and_eq_true, decide_eq_true_eq] at hmem
  rw [← Bool.not_eq_true, isPrintable_iff]
  intro hnone
  rcases hranges b hb with rfl | ⟨r, hr, hle⟩
  · have hnot := hnone _ hcontrol
    omega
  · have hnot := hnone r hr
    omega

/-- Control characters have no visible form. -/
theorem isPrintable_eq_false_of_control {c : Char}
    (h : c.toNat < 0x20 ∨ 0x7F ≤ c.toNat ∧ c.toNat < 0xA0) :
  isPrintable c = false
  := by
  have hlow : (0x0, 0x1F) ∈ unprintableRanges := by decide +kernel
  have hhigh : (0x7F, 0x9F) ∈ unprintableRanges := by decide +kernel
  rw [← Bool.not_eq_true, isPrintable_iff]
  intro hnone
  have hnot := hnone _ hlow
  have hnot' := hnone _ hhigh
  omega

/-- Unassigned code points have no visible form. -/
theorem isPrintable_eq_false_of_isUnassigned {c : Char} (h : isUnassigned c = true) :
  isPrintable c = false
  := by
  simp only [isUnassigned, List.any_eq_true, Bool.and_eq_true, decide_eq_true_eq] at h
  obtain ⟨r, hr, hmem⟩ := h
  rw [← Bool.not_eq_true, isPrintable_iff]
  intro hnone
  apply hnone r _ hmem
  rw [unprintableRanges]
  apply List.mem_append_right _ hr

/-! ### Printable texts -/

/-- All characters of the text are printable. -/
def Printable (s : String) : Prop :=
  ∀ c ∈ s.toList, isPrintable c = true

theorem Printable.append {s t : String} (h : Printable s) (h' : Printable t) :
  Printable (s ++ t)
  := by
  rw [Printable, String.toList_append, List.forall_mem_append]
  exact ⟨h, h'⟩

theorem printable_of_isCommon {s : String} (h : s.toList.all isCommon = true) :
  Printable s
  := fun c hc => isPrintable_of_isCommon (List.all_eq_true.mp h c hc)

theorem isCommon_of_isNumeral {c : Char} (h : isNumeral c = true) :
  isCommon c = true
  := by
  obtain ⟨hlow, hhigh⟩ := isNumeral_iff.mp h
  have hle : 0x30 ≤ c.toNat := hlow
  have hle' : c.toNat ≤ 0x39 := hhigh
  simp only [isCommon, Bool.or_eq_true, Bool.and_eq_true, decide_eq_true_eq]
  omega

theorem printable_nat (n : Nat) :
  Printable (toString n)
  := by
  apply printable_of_isCommon
  rw [Nat.toString_eq_ofList_toDigits, String.toList_ofList, List.all_eq_true]
  intro c hc
  apply isCommon_of_isNumeral ((isNumeral_toDigits n).2 c hc)

theorem printable_int (n : Int) :
  Printable (toString n)
  := by
  cases n with
  | ofNat m => apply printable_nat
  | negSucc m =>
    have hminus : Printable "-" := printable_of_isCommon rfl
    apply hminus.append (printable_nat (m + 1))

/-! ### Quoted texts -/

theorem isPrintable_of_mem_hexDigits {width n : Nat} {c : Char} (h : c ∈ hexDigits width n) :
  isPrintable c = true
  := by
  have hdigit : ∀ m < 16, isCommon (Nat.digitChar m) = true := by decide
  induction width generalizing n with
  | zero => cases h
  | succ width ih =>
    rcases List.mem_append.mp h with hmore | hlast
    · apply ih hmore
    · rw [List.mem_singleton] at hlast
      rw [hlast]
      apply isPrintable_of_isCommon (hdigit _ (Nat.mod_lt _ (by decide)))

theorem isPrintable_of_mem_escapeCodePoint {n : Nat} {c : Char} (h : c ∈ escapeCodePoint n) :
  isPrintable c = true
  := by
  have hletters : ∀ d ∈ ['\\', 'x', 'u', 'U'], isPrintable d = true := by simp [isPrintable]
  have hescape : ∀ letter ∈ ['x', 'u', 'U'], ∀ width,
      c ∈ '\\' :: letter :: hexDigits width n → isPrintable c = true := by
    intro letter hletter width hc
    rw [List.mem_cons, List.mem_cons] at hc
    rcases hc with rfl | rfl | hdigit
    · apply hletters _ (by simp)
    · apply hletters _ (List.mem_cons_of_mem _ hletter)
    · apply isPrintable_of_mem_hexDigits hdigit
  rw [escapeCodePoint] at h
  split_ifs at h
  · apply hescape 'x' (by simp) 2 h
  · apply hescape 'u' (by simp) 4 h
  · apply hescape 'U' (by simp) 8 h

/-- A character is escaped if it has no visible form. -/
theorem isPrintable_of_mem_escape {mark c d : Char} (hmark : isPrintable mark = true)
    (h : d ∈ escape mark c) :
  isPrintable d = true
  := by
  have hletters : ∀ e ∈ ['\\', 'n', 'r', 't'], isPrintable e = true := by simp [isPrintable]
  rw [escape] at h
  split_ifs at h with hspecial hline hreturn htab hprintable
  · rw [List.mem_cons, List.mem_singleton] at h
    rw [Bool.or_eq_true, decide_eq_true_eq, decide_eq_true_eq] at hspecial
    rcases h with rfl | rfl
    · apply hletters _ (by simp)
    · rcases hspecial with rfl | rfl
      · apply hletters _ (by simp)
      · apply hmark
  · apply hletters d (by grind)
  · apply hletters d (by grind)
  · apply hletters d (by grind)
  · rw [List.mem_singleton.mp h]
    apply hprintable
  · apply isPrintable_of_mem_escapeCodePoint h

theorem isPrintable_quoteMark (s : List Char) :
  isPrintable (quoteMark s) = true
  := by
  rw [quoteMark]
  split
  all_goals decide

/-- The quoted form of a text has printable characters only. -/
theorem isPrintable_of_mem_quoteChars {s : List Char} {c : Char} (h : c ∈ quoteChars s) :
  isPrintable c = true
  := by
  have hmark := isPrintable_quoteMark s
  rw [quoteChars, List.cons_append, List.mem_cons, List.mem_append, List.mem_singleton] at h
  rcases h with rfl | hchars | rfl
  · apply hmark
  · obtain ⟨d, -, hd⟩ := List.mem_flatMap.mp hchars
    apply isPrintable_of_mem_escape hmark hd
  · apply hmark

theorem printable_quote (s : String) :
  Printable (quote s)
  := by
  rw [Printable, quote, String.toList_ofList]
  apply isPrintable_of_mem_quoteChars

theorem printable_quoteChar (c : Char) :
  Printable (quoteChar c)
  := by
  rw [Printable, quoteChar, String.toList_ofList]
  apply isPrintable_of_mem_quoteChars

end Text

/-! ### Messages -/

theorem Expected.printable_text (e : Expected) :
  Printable e.text
  := by
  have hkinds : ∀ k ∈ Token.Kind.all, (Expected.kind k).text.toList.all isCommon = true := by
    decide
  apply printable_of_isCommon
  cases e with
  | kind k => apply hkinds k k.mem_all
  | _ => decide

theorem Malformation.printable_detail {m : Malformation} (h : ∀ typeName, m ≠ .alien typeName) :
  Printable m.detail
  := by
  cases m with
  | keyword expected found =>
    have hbegin : Printable "oczekiwano słowa " := printable_of_isCommon rfl
    have hword : Printable expected.text := by
      apply printable_of_isCommon
      cases expected
      all_goals decide
    have hfound : Printable ", otrzymano " := printable_of_isCommon rfl
    apply ((hbegin.append hword).append hfound).append (printable_quote found)
  | returnValue found =>
    have hbegin : Printable "RETURN wymaga liczby, otrzymano " :=
      printable_of_isCommon rfl
    apply hbegin.append (printable_quote found)
  | connective text =>
    have hbegin : Printable "nieznany operator logiczny " := printable_of_isCommon rfl
    apply hbegin.append (printable_quote text)
  | relation text =>
    have hbegin : Printable "nieobsługiwany operator " := printable_of_isCommon rfl
    apply hbegin.append (printable_quote text)
  | group =>
    apply printable_of_isCommon
    decide
  | alien typeName => exact absurd rfl (h typeName)

theorem AssignmentFault.printable_reason (a : AssignmentFault) :
  Printable a.reason
  := by
  cases a with
  | equalsSign =>
    apply printable_of_isCommon
    decide
  | name text =>
    have hbegin : Printable "niepoprawna nazwa zmiennej " := printable_of_isCommon rfl
    apply hbegin.append (printable_quote text)
  | value text =>
    have hbegin : Printable "wartość " := printable_of_isCommon rfl
    have hend : Printable " nie jest liczbą" := printable_of_isCommon rfl
    apply (hbegin.append (printable_quote text)).append hend

theorem Fault.printable_kind (f : Fault) :
  Printable f.kind
  := by
  apply printable_of_isCommon
  cases f
  all_goals simp [kind, isCommon]

/-- The message of a fault has printable characters only, unless it tells of a value of a foreign
type in a program that was put together by hand. -/
theorem Fault.printable_message {f : Fault} (h : ∀ typeName, f ≠ .malformed (.alien typeName)) :
  Printable f.message
  := by
  cases f with
  | lexical stuck =>
    have hbegin : Printable "Nierozpoznany znak " := printable_of_isCommon rfl
    have hline : Printable " w linii " := printable_of_isCommon rfl
    have hcolumn : Printable ", kolumnie " := printable_of_isCommon rfl
    have hchar := (hbegin.append (printable_quoteChar stuck.char)).append hline
    apply ((hchar.append (printable_nat stuck.place.line)).append hcolumn).append
      (printable_nat stuck.place.column)
  | misplaced position expected found =>
    have hbegin : Printable "Błąd składni na pozycji " := printable_of_isCommon rfl
    have hexpected : Printable ": oczekiwano " := printable_of_isCommon rfl
    have hfound : Printable ", otrzymano " := printable_of_isCommon rfl
    have htext : Printable (foundText found) := by
      cases found with
      | some text => apply printable_quote
      | none => apply Expected.printable_text .endOfInput
    have hplace := (hbegin.append (printable_int position)).append hexpected
    apply ((hplace.append expected.printable_text).append hfound).append htext
  | undefined name comparison =>
    have hbegin : Printable "Zmienna " := printable_of_isCommon rfl
    have hwhere : Printable " nie jest zdefiniowana w wyrażeniu " :=
      printable_of_isCommon rfl
    have hname := (hbegin.append (printable_quote name)).append hwhere
    apply hname.append (printable_quote comparison)
  | malformed cause =>
    have hbegin : Printable "Niepoprawna klauzula: " := printable_of_isCommon rfl
    apply hbegin.append
    apply Malformation.printable_detail
    rintro typeName rfl
    apply h typeName rfl
  | assignment piece cause =>
    have hbegin : Printable "Niepoprawne przypisanie " := printable_of_isCommon rfl
    have hcolon : Printable ": " := printable_of_isCommon rfl
    apply ((hbegin.append (printable_quote piece)).append hcolon).append cause.printable_reason

end Verdict
