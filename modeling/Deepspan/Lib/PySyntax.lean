import Deepspan.Lib.CSyntax

/-!
# A little of Python

As much of the syntax of Python as lines of constants need: comments, lines of code, and
assignments of hexadecimal literals in the body of a class. A comment ends with its line, so
that texts are read line by line (`codeLines_append`).
-/

namespace PySyntax

open CSyntax

/-- The code in a line, if there is any. -/
def lineCode (line : List Char) : List (List Char) :=
  if line.all fun c => c = ' ' ∨ c = '\t' then [] else [line]

/-- The lines of code of a text. `inside` says that `#` has begun a comment, and `line` is what
has been read of the line. -/
def codeLines : Bool → List Char → List Char → List (List Char)
  | _, line, [] => lineCode line
  | inside, line, c :: cs =>
    if c = '\n' ∨ c = '\r' then lineCode line ++ codeLines false [] cs
    else if inside = true ∨ c = '#' then codeLines true line cs
    else codeLines false (line ++ [c]) cs

/-- Behind `#`, all of a text is comments. -/
def IsComment (text : List Char) : Prop := codeLines true [] text = []

instance (text : List Char) : Decidable (IsComment text) :=
  inferInstanceAs (Decidable (_ = _))

/-- A hexadecimal literal. -/
def constant? : List Char → Option Nat
  | '0' :: 'x' :: cs => if cs = [] then none else hexValue? 0 cs
  | _ => none

/-- A line `<name> = <value>` of a class body. -/
def assignment? (line : List Char) : Option (List Char × Nat) :=
  match scan [] line with
  | [.other ' ', .other ' ', .other ' ', .other ' ', .word name, .other ' ', .other '=',
      .other ' ', .word value, .other ' ', .other ' '] =>
    (constant? value).map fun v => (name, v)
  | _ => none

/-- A text is one line of code, an assignment, whatever comes behind it. -/
def ReadsAs (text name : List Char) (value : Nat) : Prop :=
  ∃ code, assignment? code = some (name, value) ∧
    ∀ rest, codeLines false [] (text ++ rest) = code :: codeLines false [] rest

/-! ## Lines -/

section Lines

variable {l : List Char}

/-- Lines are read one after another. -/
theorem codeLines_append (inside : Bool) (line a b : List Char) :
    codeLines inside line (a ++ '\n' :: b) = codeLines inside line a ++ codeLines false [] b := by
  induction a generalizing inside line with
  | nil =>
    rw [List.nil_append, codeLines]
    exact if_pos (Or.inl rfl)
  | cons c a ih =>
    rw [List.cons_append, codeLines, codeLines]
    split
    · rw [ih, List.append_assoc]
    · split
      · exact ih ..
      · exact ih ..

/-- A comment behind code. -/
theorem codeLines_comment (line text : List Char) :
    codeLines true line text = lineCode line ++ codeLines true [] text := by
  induction text with
  | nil => exact (List.append_nil _).symm
  | cons c text ih =>
    rw [codeLines, codeLines]
    split
    · rfl
    · rw [if_pos (Or.inl rfl), if_pos (Or.inl rfl), ih]

/-- A text of one line. -/
theorem isComment_line (h : ∀ c ∈ l, c ≠ '\n' ∧ c ≠ '\r') : IsComment l := by
  unfold IsComment
  induction l with
  | nil => rfl
  | cons c l ih =>
    have hc := h c (List.mem_cons_self ..)
    rw [codeLines, if_neg (by simp [hc]), if_pos (Or.inl rfl)]
    exact ih fun d hd => h d (List.mem_cons_of_mem _ hd)

/-- Characters that end no line and begin no comment. -/
theorem codeLines_code (h : ∀ c ∈ l, c ≠ '\n' ∧ c ≠ '\r' ∧ c ≠ '#') (line rest : List Char) :
    codeLines false line (l ++ rest) = codeLines false (line ++ l) rest := by
  induction l generalizing line with
  | nil => rw [List.nil_append, List.append_nil]
  | cons c l ih =>
    obtain ⟨hn, hr, hhash⟩ := h c (List.mem_cons_self ..)
    rw [List.cons_append, codeLines, if_neg (by simp [hn, hr]), if_neg (by simp [hhash]),
      ih fun d hd => h d (List.mem_cons_of_mem _ hd), List.append_assoc]
    rfl

theorem code_of_words (h : ∀ c ∈ l, isWordChar c = true) :
    ∀ c ∈ l, c ≠ '\n' ∧ c ≠ '\r' ∧ c ≠ '#' :=
  fun c hc => ⟨ne_of_isWordChar (h c hc) (by decide), ne_of_isWordChar (h c hc) (by decide),
    ne_of_isWordChar (h c hc) (by decide)⟩

end Lines

/-! ## Assignments -/

section Assignments

attribute [local irreducible] String.toList

variable {n value doc : List Char} {v : Nat}

/-- `<name> = <value>  `. -/
def assignmentCode (n value : List Char) : List Char :=
  "    ".toList ++ (n ++ (" = ".toList ++ (value ++ "  ".toList)))

/-- `<name> = <value>  # <doc>`. -/
def assignmentLine (n value doc : List Char) : List Char :=
  assignmentCode n value ++ ("# ".toList ++ (doc ++ "\n".toList))

theorem assignment?_code (hn : IsIdent n) (hword : ∀ c ∈ value, isWordChar c = true)
    (hne : value ≠ []) (hvalue : constant? value = some v) :
    assignment? (assignmentCode n value) = some (n, v) := by
  have hscan : scan [] (assignmentCode n value) = [.other ' ', .other ' ', .other ' ', .other ' ',
      .word n, .other ' ', .other '=', .other ' ', .word value, .other ' ', .other ' '] := by
    unfold assignmentCode
    repeat rw [String.toList_ofList]
    simp only [List.cons_append, List.nil_append]
    show .other ' ' :: .other ' ' :: .other ' ' :: .other ' ' :: scan [] (n ++ ' ' :: _) = _
    rw [hn.scan_eq (by decide)]
    show _ :: _ :: _ :: _ :: _ :: _ :: .other '=' :: .other ' ' :: scan [] (value ++ ' ' :: _) = _
    rw [scan_word hword hne (by decide)]
    rfl
  rw [assignment?, hscan]
  show (constant? value).map _ = _
  rw [hvalue]
  rfl

theorem lineCode_assignment (hn : IsIdent n) (value : List Char) :
    lineCode (assignmentCode n value) = [assignmentCode n value] := by
  obtain ⟨c, hc⟩ := List.exists_mem_of_ne_nil _ hn.ne
  have hblank : ¬(c = ' ' ∨ c = '\t') := by
    rintro (rfl | rfl)
    · exact absurd (hn.chars _ hc) (by decide)
    · exact absurd (hn.chars _ hc) (by decide)
  rw [lineCode, if_neg]
  intro hall
  refine hblank (of_decide_eq_true (List.all_eq_true.mp hall c ?_))
  exact List.mem_append_right _ (List.mem_append_left _ hc)

/-- An assignment, and then the other lines of its documentation. -/
theorem codeLines_assignment (hn : IsIdent n) (hword : ∀ c ∈ value, isWordChar c = true)
    (rest : List Char) : codeLines false [] (assignmentLine n value doc ++ rest) =
      assignmentCode n value :: (codeLines true [] doc ++ codeLines false [] rest) := by
  have hsplit : assignmentLine n value doc ++ rest =
      assignmentCode n value ++ '#' :: ' ' :: (doc ++ '\n' :: rest) := by
    unfold assignmentLine
    repeat rw [String.toList_ofList]
    simp only [List.append_assoc, List.cons_append, List.nil_append]
  have hcode : ∀ c ∈ assignmentCode n value, c ≠ '\n' ∧ c ≠ '\r' ∧ c ≠ '#' := by
    unfold assignmentCode
    repeat rw [String.toList_ofList]
    exact List.forall_mem_append.mpr ⟨by simp, List.forall_mem_append.mpr
      ⟨code_of_words hn.chars, List.forall_mem_append.mpr ⟨by simp, List.forall_mem_append.mpr
        ⟨code_of_words hword, by simp⟩⟩⟩⟩
  rw [hsplit, codeLines_code hcode, List.nil_append]
  show codeLines true (assignmentCode n value) (doc ++ '\n' :: rest) = _
  rw [codeLines_append, codeLines_comment, lineCode_assignment hn]
  rfl

/-- The line of an assignment is read as such exactly if its documentation is a comment. -/
theorem readsAs_assignmentLine_iff (hn : IsIdent n) (hword : ∀ c ∈ value, isWordChar c = true)
    (hne : value ≠ []) (hvalue : constant? value = some v) :
    ReadsAs (assignmentLine n value doc) n v ↔ IsComment doc := by
  constructor
  · rintro ⟨code, -, hlines⟩
    have hone := hlines []
    rw [codeLines_assignment hn hword] at hone
    exact (List.append_eq_nil_iff.mp (List.cons.inj hone).2).1
  · intro hdoc
    refine ⟨assignmentCode n value, assignment?_code hn hword hne hvalue, fun rest => ?_⟩
    rw [codeLines_assignment hn hword, hdoc, List.nil_append]

end Assignments

end PySyntax
