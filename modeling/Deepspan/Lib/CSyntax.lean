import Mathlib.Algebra.Group.Nat.Defs

/-!
# A little of C

As much of the syntax of C as small generated headers need: line splicing, the tokens, the
unsigned hexadecimal constants and the expressions over `==` and `||`. A text is scanned
into words and other characters (`scan`), and these are put together to tokens (`glue`).
`scan_word` is the rule that scans a text piece by piece: a word ends where a character
follows that belongs to no word.
-/

namespace CSyntax

/-! ## Lines -/

/-- Translation phase 2: a backslash in front of a newline disappears with it. -/
def splice : List Char → List Char
  | '\\' :: '\n' :: cs => splice cs
  | c :: cs => c :: splice cs
  | [] => []

/-- Where a text is read: in code, behind `//` or behind `/*`. -/
inductive Place where
  | code
  | line
  | block
deriving DecidableEq, Repr

/-- Translation phase 3: comments go. One that `//` begins ends in front of the newline, and
one that `/*` begins is a blank. -/
def uncomment : Place → List Char → List Char
  | _, [] => []
  | .line, c :: cs => if c = '\n' then '\n' :: uncomment .code cs else uncomment .line cs
  | .block, '*' :: '/' :: cs => uncomment .code cs
  | .block, _ :: cs => uncomment .block cs
  | .code, '/' :: '/' :: cs => uncomment .line cs
  | .code, '/' :: '*' :: cs => ' ' :: uncomment .block cs
  | .code, c :: cs => c :: uncomment .code cs

/-- Every backslash stands in front of a newline. -/
def backslashesOk : List Char → Bool
  | '\\' :: '\n' :: cs => backslashesOk cs
  | '\\' :: _ => false
  | _ :: cs => backslashesOk cs
  | [] => true

/-- Reads on with `depth` parentheses open. -/
def parensFrom : Nat → List Char → Bool
  | depth, '(' :: cs => parensFrom (depth + 1) cs
  | 0, ')' :: _ => false
  | depth + 1, ')' :: cs => parensFrom depth cs
  | depth, _ :: cs => parensFrom depth cs
  | depth, [] => depth == 0

/-- The parentheses balance. -/
def parensBalance (cs : List Char) : Bool := parensFrom 0 cs

/-- A backslash in the middle of a line, wherever it is. -/
theorem not_backslashesOk (before : List Char) {c : Char} (hc : c ≠ '\n') (rest : List Char) :
    backslashesOk (before ++ '\\' :: c :: rest) = false := by
  fun_induction backslashesOk before with
  | case1 cs ih => exact ih
  | case2 cs h =>
    cases cs with
    | nil => rfl
    | cons d ds =>
      rw [List.cons_append, List.cons_append, backslashesOk]
      intro es heq
      exact h ds (by rw [(List.cons.inj heq).1])
  | case3 d cs _ hd ih =>
    rw [List.cons_append, backslashesOk]
    · exact ih
    · exact fun _ heq _ => hd heq
    · exact hd
  | case4 =>
    rw [List.nil_append, backslashesOk]
    intro es heq
    exact hc (List.cons.inj heq).1

/-! ## Tokens -/

def isWordChar (c : Char) : Bool := c.isAlphanum || c == '_'

/-- A maximal run of letters, digits and underscores, or another character. -/
inductive Raw where
  | word (w : List Char)
  | other (c : Char)
deriving DecidableEq, Repr

/-- The word that has been collected, if any. -/
def flush (w : List Char) : List Raw := if w = [] then [] else [.word w]

/-- Scans a text, with the word `w` already begun. -/
def scan (w : List Char) : List Char → List Raw
  | [] => flush w
  | c :: cs => if isWordChar c then scan (w ++ [c]) cs else flush w ++ .other c :: scan [] cs

inductive Tok where
  | ident (w : List Char)
  | num (n : Nat)
  | punct (c : Char)
  | eqEq
  | orOr
  | scope
  | newline
  | bad
deriving DecidableEq, Repr

def hexDigitValue? (c : Char) : Option Nat :=
  if c.isDigit then some (c.toNat - '0'.toNat)
  else if 'A' ≤ c ∧ c ≤ 'F' then some (c.toNat - 'A'.toNat + 10)
  else if 'a' ≤ c ∧ c ≤ 'f' then some (c.toNat - 'a'.toNat + 10)
  else none

/-- The value of hexadecimal digits, behind a value already read. -/
def hexValue? : Nat → List Char → Option Nat
  | v, [] => some v
  | v, c :: cs => (hexDigitValue? c).bind fun d => hexValue? (16 * v + d) cs

/-- A hexadecimal constant with an unsigned suffix that fits an `unsigned int`. -/
def constant? : List Char → Option Nat
  | '0' :: 'x' :: cs =>
    if cs.getLast? = some 'U' ∧ 2 ≤ cs.length then
      (hexValue? 0 cs.dropLast).bind fun v => if v < 2 ^ 32 then some v else none
    else none
  | _ => none

/-- A word is a constant if it begins with a digit, and else an identifier or a keyword. -/
def classify (w : List Char) : Tok :=
  if (w.head?).any Char.isDigit then
    match constant? w with
    | some n => .num n
    | none => .bad
  else .ident w

/-- Tokens; blanks go, newlines stay. -/
def glue : List Raw → List Tok
  | [] => []
  | .word w :: r => classify w :: glue r
  | .other '=' :: .other '=' :: r => .eqEq :: glue r
  | .other '|' :: .other '|' :: r => .orOr :: glue r
  | .other ':' :: .other ':' :: r => .scope :: glue r
  | .other ' ' :: r | .other '\t' :: r | .other '\r' :: r => glue r
  | .other '\n' :: r => .newline :: glue r
  | .other c :: r => .punct c :: glue r

/-- The tokens of a text, newlines left out. -/
def tokens (cs : List Char) : List Tok := (glue (scan [] cs)).filter (· != .newline)

/-- The tokens of a text with comments, newlines included. -/
def codeLines (cs : List Char) : List Tok := glue (scan [] (uncomment .code (splice cs)))

/-- The tokens of a text with comments. -/
def codeTokens (place : Place) (cs : List Char) : List Tok := tokens (uncomment place (splice cs))

/-- A piece of a text that has tokens of its own, whatever comes behind it. -/
def ReadsAs (piece : List Char) (toks : List Tok) : Prop :=
  ∀ rest, codeTokens .code (piece ++ rest) = toks ++ codeTokens .code rest

/-- Behind `//`: a text that is a comment, and nothing but comments up to its end. -/
def IsComment (piece : List Char) : Prop :=
  ∀ rest, codeTokens .line (piece ++ rest) = codeTokens .code rest

/-- The macros that lines of `#define`s define, whatever these stand for. `inLine` says that
the name has been read. -/
def macroNames : Bool → List Tok → Option (List (List Char))
  | _, [] => some []
  | _, .newline :: rest => macroNames false rest
  | true, _ :: rest => macroNames true rest
  | false, .punct '#' :: .ident d :: .ident name :: rest =>
    if d = "define".toList then (macroNames true rest).map (name :: ·) else none
  | false, _ => none

/-- An identifier or the beginning of one. -/
structure IsIdentStart (w : List Char) : Prop where
  chars : ∀ c ∈ w, isWordChar c = true
  start : (w.head?).any Char.isDigit = false

theorem macroNames_cons_define (name : List Char) (rest : List Tok) :
    macroNames false (.punct '#' :: .ident ['d', 'e', 'f', 'i', 'n', 'e'] :: .ident name :: rest) =
      (macroNames true rest).map (name :: ·) := by
  rw [macroNames, if_pos String.toList_ofList.symm]

theorem macroNames_classify (w : List Char) (toks : List Tok) :
    macroNames true (classify w :: toks) = macroNames true toks := by
  unfold classify
  split
  · split <;> rfl
  · rfl

/-! ## Texts piece by piece -/

section Pieces

variable {l : List Char}

theorem ne_of_isWordChar {c d : Char} (h : isWordChar c = true) (hd : isWordChar d = false) :
    c ≠ d := by
  rintro rfl
  rw [h] at hd
  cases hd

theorem backslashesOk_append (h : ∀ c ∈ l, isWordChar c = true) (rest : List Char) :
    backslashesOk (l ++ rest) = backslashesOk rest := by
  induction l with
  | nil => rfl
  | cons c l ih =>
    have hc : c ≠ '\\' := ne_of_isWordChar (h c (List.mem_cons_self ..)) (by decide)
    rw [List.cons_append, backslashesOk, ih fun d hd => h d (List.mem_cons_of_mem _ hd)]
    · exact fun _ heq _ => hc heq
    · exact hc

/-- Characters that join no lines and begin no comments. -/
def Plain (l : List Char) : Prop := ∀ c ∈ l, c ≠ '\\' ∧ c ≠ '/'

theorem plain_of_words (h : ∀ c ∈ l, isWordChar c = true) : Plain l :=
  fun c hc => ⟨ne_of_isWordChar (h c hc) (by decide), ne_of_isWordChar (h c hc) (by decide)⟩

theorem Plain.append {a b : List Char} (ha : Plain a) (hb : Plain b) : Plain (a ++ b) :=
  List.forall_mem_append.mpr ⟨ha, hb⟩

theorem splice_append (h : Plain l) (rest : List Char) : splice (l ++ rest) = l ++ splice rest := by
  induction l with
  | nil => rfl
  | cons c l ih =>
    rw [List.cons_append, splice, ih fun d hd => h d (List.mem_cons_of_mem _ hd)]
    · rfl
    · exact fun _ heq _ => (h c (List.mem_cons_self ..)).1 heq

theorem uncomment_append (h : Plain l) (rest : List Char) :
    uncomment .code (l ++ rest) = l ++ uncomment .code rest := by
  induction l with
  | nil => rfl
  | cons c l ih =>
    have hc : c ≠ '/' := (h c (List.mem_cons_self ..)).2
    rw [List.cons_append, uncomment, ih fun d hd => h d (List.mem_cons_of_mem _ hd)]
    · rfl
    · exact fun _ heq _ => hc heq
    · exact fun _ heq _ => hc heq

theorem codeLines_append (h : Plain l) (rest : List Char) :
    codeLines (l ++ rest) = glue (scan [] (l ++ uncomment .code (splice rest))) := by
  rw [codeLines, splice_append h, uncomment_append h]

theorem codeTokens_append (h : Plain l) (rest : List Char) :
    codeTokens .code (l ++ rest) = tokens (l ++ uncomment .code (splice rest)) := by
  rw [codeTokens, splice_append h, uncomment_append h]

/-- A line, in front of a text that does not take its end away. -/
theorem splice_line (h : '\n' ∉ l) {rest : List Char}
    (hend : l.getLast? = some '\\' → rest.head? ≠ some '\n') :
    splice (l ++ rest) = l ++ splice rest := by
  induction l with
  | nil => rfl
  | cons c l ih =>
    have htail : splice (l ++ rest) = l ++ splice rest := by
      refine ih (fun hmem => h (List.mem_cons_of_mem _ hmem)) fun hlast => hend ?_
      rw [List.getLast?_cons, hlast]
      rfl
    rw [List.cons_append, splice, htail]
    · rfl
    · -- the backslash would be the last character of the line
      rintro cs rfl heq
      cases l with
      | nil =>
        refine hend rfl ?_
        rw [List.nil_append] at heq
        rw [heq]
        rfl
      | cons d l =>
        refine h (List.mem_cons_of_mem _ ?_)
        rw [(List.cons.inj heq).1]
        exact List.mem_cons_self ..

theorem uncomment_line (h : '\n' ∉ l) (rest : List Char) :
    uncomment .line (l ++ rest) = uncomment .line rest := by
  induction l with
  | nil => rfl
  | cons c l ih =>
    have hc : c ≠ '\n' := fun heq => h (heq ▸ List.mem_cons_self ..)
    rw [List.cons_append, uncomment, if_neg hc, ih fun hmem => h (List.mem_cons_of_mem _ hmem)]

/-- A line is a comment exactly if no backslash joins the next one to it. -/
theorem isComment_line_iff (h : '\n' ∉ l) :
    IsComment (l ++ ['\n']) ↔ l.getLast? ≠ some '\\' := by
  constructor
  · intro hcomment hlast
    obtain ⟨front, rfl⟩ := List.getLast?_eq_some_iff.mp hlast
    have hfront : '\n' ∉ front := fun hmem => h (List.mem_append_left _ hmem)
    -- what comes behind the line belongs to the comment
    have hword := hcomment ['x']
    rw [codeTokens, List.append_assoc, List.append_assoc,
      splice_line hfront (fun _ => by decide), uncomment_line hfront] at hword
    exact absurd hword (by decide)
  · intro hlast rest
    rw [codeTokens, List.append_assoc, splice_line h (fun heq => absurd heq hlast),
      uncomment_line h]
    rfl

theorem parensFrom_append (h : ∀ c ∈ l, isWordChar c = true) (depth : Nat) (rest : List Char) :
    parensFrom depth (l ++ rest) = parensFrom depth rest := by
  induction l with
  | nil => rfl
  | cons c l ih =>
    have hopen : c ≠ '(' := ne_of_isWordChar (h c (List.mem_cons_self ..)) (by decide)
    have hclose : c ≠ ')' := ne_of_isWordChar (h c (List.mem_cons_self ..)) (by decide)
    rw [List.cons_append, parensFrom, ih fun d hd => h d (List.mem_cons_of_mem _ hd)]
    · exact hopen
    · exact fun _ => hclose
    · exact fun _ _ => hclose

theorem scan_append (h : ∀ c ∈ l, isWordChar c = true) (w rest : List Char) :
    scan w (l ++ rest) = scan (w ++ l) rest := by
  induction l generalizing w with
  | nil => simp
  | cons c l ih =>
    rw [List.cons_append, scan, if_pos (h c (List.mem_cons_self ..)),
      ih fun d hd => h d (List.mem_cons_of_mem _ hd)]
    simp

/-- A word, and what comes behind it. -/
theorem scan_word (h : ∀ c ∈ l, isWordChar c = true) (hne : l ≠ []) {c : Char}
    (hc : isWordChar c = false) (rest : List Char) :
    scan [] (l ++ c :: rest) = .word l :: .other c :: scan [] rest := by
  rw [scan_append h, List.nil_append, scan, if_neg (by rw [hc]; decide), flush, if_neg hne]
  rfl

end Pieces

/-! ## Identifiers and constants -/

/-- A word that is an identifier. -/
structure IsIdent (w : List Char) : Prop extends IsIdentStart w where
  ne : w ≠ []

/-- What an identifier may begin with, an underscore, and more. -/
theorem IsIdentStart.isIdent_underscore {a b : List Char} (ha : IsIdentStart a)
    (hb : ∀ c ∈ b, isWordChar c = true) : IsIdent (a ++ '_' :: b) where
  chars := by
    intro c hc
    rcases List.mem_append.mp hc with hc | hc
    · exact ha.chars c hc
    · rcases List.mem_cons.mp hc with rfl | hc
      · decide
      · exact hb c hc
  start := by
    cases a with
    | nil => rfl
    | cons c a => exact ha.start
  ne := by simp

instance (w : List Char) : Decidable (IsIdent w) :=
  decidable_of_iff
    ((w.all isWordChar = true ∧ (w.head?).any Char.isDigit = false) ∧ w ≠ [])
    ⟨fun h => ⟨⟨List.all_eq_true.mp h.1.1, h.1.2⟩, h.2⟩,
      fun h => ⟨⟨List.all_eq_true.mpr h.chars, h.start⟩, h.ne⟩⟩

theorem IsIdent.classify_eq {w : List Char} (h : IsIdent w) : classify w = .ident w := by
  rw [classify, if_neg (by rw [h.start]; decide)]

theorem IsIdent.scan_eq {w : List Char} (h : IsIdent w) {c : Char} (hc : isWordChar c = false)
    (rest : List Char) : scan [] (w ++ c :: rest) = .word w :: .other c :: scan [] rest :=
  scan_word h.chars h.ne hc rest

theorem IsIdent.glue_scan {w : List Char} (h : IsIdent w) {c : Char} (hc : isWordChar c = false)
    (rest : List Char) :
    glue (scan [] (w ++ c :: rest)) = .ident w :: glue (.other c :: scan [] rest) := by
  rw [h.scan_eq hc, glue, h.classify_eq]

theorem IsIdent.isIdentStart_of_append {a b : List Char} (h : IsIdent (a ++ b)) :
    IsIdentStart a where
  chars := fun c hc => h.chars c (List.mem_append_left b hc)
  start := by
    cases a with
    | nil => rfl
    | cons c a => exact h.start

theorem word_of_mem_flush {w u : List Char} (hw : ∀ c ∈ w, isWordChar c = true)
    (h : Raw.word u ∈ flush w) : (∀ c ∈ u, isWordChar c = true) ∧ u ≠ [] := by
  unfold flush at h
  split at h
  · cases h
  · next hne =>
    cases List.mem_singleton.mp h
    exact ⟨hw, hne⟩

theorem word_of_mem_scan_from {w u cs : List Char} (hw : ∀ c ∈ w, isWordChar c = true)
    (h : Raw.word u ∈ scan w cs) : (∀ c ∈ u, isWordChar c = true) ∧ u ≠ [] := by
  induction cs generalizing w with
  | nil => exact word_of_mem_flush hw h
  | cons c cs ih =>
    rw [scan] at h
    split at h
    · next hc =>
      refine ih ?_ h
      intro d hd
      rcases List.mem_append.mp hd with hd | hd
      · exact hw d hd
      · rw [List.mem_singleton.mp hd]
        exact hc
    · rcases List.mem_append.mp h with h | h
      · exact word_of_mem_flush hw h
      · refine ih (by simp) ((List.mem_cons.mp h).resolve_left ?_)
        simp

/-- What is scanned as a word is one. -/
theorem word_of_mem_scan {u cs : List Char} (h : Raw.word u ∈ scan [] cs) :
    (∀ c ∈ u, isWordChar c = true) ∧ u ≠ [] :=
  word_of_mem_scan_from (by simp) h

theorem classify_eq_ident {w u : List Char} (h : classify w = .ident u) :
    w = u ∧ (w.head?).any Char.isDigit = false := by
  unfold classify at h
  split at h
  · split at h
    · cases h
    · cases h
  · next hstart => exact ⟨Tok.ident.inj h, Bool.eq_false_iff.mpr hstart⟩

theorem word_of_ident_mem_glue {r : List Raw} {u : List Char} (h : Tok.ident u ∈ glue r) :
    Raw.word u ∈ r ∧ (u.head?).any Char.isDigit = false := by
  fun_induction glue r with
  | case1 => cases h
  | case2 w r ih =>
    rcases List.mem_cons.mp h with h | h
    · obtain ⟨rfl, hstart⟩ := classify_eq_ident h.symm
      exact ⟨List.mem_cons_self .., hstart⟩
    · exact ⟨List.mem_cons_of_mem _ (ih h).1, (ih h).2⟩
  | case6 r ih | case7 r ih | case8 r ih =>
    exact ⟨List.mem_cons_of_mem _ (ih h).1, (ih h).2⟩
  | case3 r ih | case4 r ih | case5 r ih =>
    have hr := ih ((List.mem_cons.mp h).resolve_left (by simp))
    exact ⟨List.mem_cons_of_mem _ (List.mem_cons_of_mem _ hr.1), hr.2⟩
  | case9 r ih | case10 c r _ _ _ _ _ _ _ ih =>
    have hr := ih ((List.mem_cons.mp h).resolve_left (by simp))
    exact ⟨List.mem_cons_of_mem _ hr.1, hr.2⟩

/-- A token that is an identifier. -/
theorem isIdent_of_mem_tokens {cs u : List Char} (h : Tok.ident u ∈ tokens cs) : IsIdent u := by
  obtain ⟨hmem, hstart⟩ := word_of_ident_mem_glue (List.mem_filter.mp h).1
  obtain ⟨hchars, hne⟩ := word_of_mem_scan hmem
  exact { chars := hchars, start := hstart, ne := hne }

/-- A word that is a constant of this value. -/
structure IsConstant (w : List Char) (n : Nat) : Prop where
  chars : ∀ c ∈ w, isWordChar c = true
  ne : w ≠ []
  value : classify w = .num n

theorem IsConstant.constant?_eq {w : List Char} {n : Nat} (h : IsConstant w n) :
    constant? w = some n := by
  have hvalue := h.value
  unfold classify at hvalue
  split at hvalue
  · split at hvalue
    · next hn =>
      rw [hn, Tok.num.inj hvalue]
    · cases hvalue
  · cases hvalue

theorem IsConstant.glue_scan {w : List Char} {n : Nat} (h : IsConstant w n) {c : Char}
    (hc : isWordChar c = false) (rest : List Char) :
    glue (scan [] (w ++ c :: rest)) = .num n :: glue (.other c :: scan [] rest) := by
  rw [scan_word h.chars h.ne hc, glue, h.value]

/-! ## Hexadecimal constants -/

/-- The upper-case hexadecimal digits of a number. -/
def hexDigits (n : Nat) : List Char := (Nat.toDigits 16 n).map Char.toUpper

theorem hexValue?_append (v : Nat) (a b : List Char) :
    hexValue? v (a ++ b) = (hexValue? v a).bind fun w => hexValue? w b := by
  induction a generalizing v with
  | nil => rfl
  | cons c a ih =>
    rw [List.cons_append, hexValue?, hexValue?, Option.bind_assoc]
    congr 1
    funext d
    exact ih _

theorem hexValue?_zeros (k : Nat) : hexValue? 0 (List.replicate k '0') = some 0 := by
  induction k with
  | zero => rfl
  | succ k ih => exact ih

theorem hexDigitValue?_digitChar {d : Nat} (h : d < 16) :
    hexDigitValue? (Nat.digitChar d).toUpper = some d := by
  have hall : ∀ d : Fin 16, hexDigitValue? (Nat.digitChar d.val).toUpper = some d.val := by
    decide
  exact hall ⟨d, h⟩

theorem hexValue?_hexDigits (n : Nat) : hexValue? 0 (hexDigits n) = some n := by
  induction n using Nat.strongRecOn with
  | ind n ih =>
    by_cases h : n < 16
    · rw [hexDigits, Nat.toDigits_of_lt_base h]
      simp only [List.map_cons, List.map_nil, hexValue?, hexDigitValue?_digitChar h,
        Option.bind_some, Nat.mul_zero, Nat.zero_add]
    · have hprefix := ih (n / 16) (by omega)
      rw [hexDigits] at hprefix ⊢
      rw [Nat.toDigits_of_base_le (by decide) (by omega), List.map_append, hexValue?_append, hprefix]
      simp only [List.map_cons, List.map_nil, hexValue?, Option.bind_some,
        hexDigitValue?_digitChar (Nat.mod_lt n (by decide))]
      congr 1
      omega

theorem isWordChar_hexDigits {n : Nat} {c : Char} (h : c ∈ hexDigits n) : isWordChar c = true := by
  induction n using Nat.strongRecOn with
  | ind n ih =>
    have hall : ∀ d : Fin 16, isWordChar (Nat.digitChar d.val).toUpper = true := by
      decide
    by_cases hlt : n < 16
    · rw [hexDigits, Nat.toDigits_of_lt_base hlt, List.map_singleton, List.mem_singleton] at h
      rw [h]
      exact hall ⟨n, hlt⟩
    · rw [hexDigits, Nat.toDigits_of_base_le (by decide) (by omega), List.map_append,
        List.mem_append, List.map_singleton, List.mem_singleton] at h
      rcases h with h | rfl
      · exact ih (n / 16) (by omega) h
      · exact hall ⟨n % 16, Nat.mod_lt n (by decide)⟩

theorem hexDigits_ne_nil (n : Nat) : hexDigits n ≠ [] := by
  rw [hexDigits, ne_eq, List.map_eq_nil_iff]
  exact Nat.toDigits_ne_nil

/-- `0x`, the digits with `k` zeros in front of them, and `U`. -/
theorem classify_constant {n : Nat} (hn : n < 2 ^ 32) (k : Nat) :
    classify ("0x".toList ++ (List.replicate k '0' ++ hexDigits n) ++ ['U']) = .num n := by
  have hlen : 2 ≤ (List.replicate k '0' ++ hexDigits n ++ ['U']).length := by
    have hpos := List.length_pos_iff.mpr (hexDigits_ne_nil n)
    simp only [List.length_append, List.length_singleton]
    omega
  have hvalue : hexValue? 0 (List.replicate k '0' ++ hexDigits n) = some n := by
    rw [hexValue?_append, hexValue?_zeros, Option.bind_some, hexValue?_hexDigits]
  have hconstant : constant? ('0' :: 'x' :: (List.replicate k '0' ++ hexDigits n ++ ['U'])) =
      some n := by
    rw [constant?, if_pos ⟨List.getLast?_concat .., hlen⟩, List.dropLast_concat, hvalue,
      Option.bind_some, if_pos hn]
  show classify ('0' :: 'x' :: (List.replicate k '0' ++ hexDigits n ++ ['U'])) = _
  rw [classify, hconstant]
  rfl

/-! ## Expressions -/

inductive CExpr where
  | var (name : List Char)
  | const (n : Nat)
  | eq (a b : CExpr)
  | or (a b : CExpr)
deriving DecidableEq, Repr

mutual

/-- A name, a constant, or an expression in parentheses. -/
def primary : Nat → List Tok → Option (CExpr × List Tok)
  | _, .ident w :: r => some (.var w, r)
  | _, .num n :: r => some (.const n, r)
  | fuel + 1, .punct '(' :: r =>
    match orExpr fuel r with
    | some (e, .punct ')' :: r') => some (e, r')
    | _ => none
  | _, _ => none

def eqExpr : Nat → List Tok → Option (CExpr × List Tok)
  | fuel + 1, r =>
    match primary fuel r with
    | some (a, .eqEq :: r') => (primary fuel r').map fun p => (.eq a p.1, p.2)
    | other => other
  | 0, _ => none

def orExpr : Nat → List Tok → Option (CExpr × List Tok)
  | fuel + 1, r =>
    match eqExpr fuel r with
    | some (a, .orOr :: r') => (orExpr fuel r').map fun p => (.or a p.1, p.2)
    | other => other
  | 0, _ => none

end

/-- An expression that takes up all the tokens. -/
def parseExpr (r : List Tok) : Option CExpr :=
  match orExpr (3 * r.length + 3) r with
  | some (e, []) => some e
  | _ => none

/-- The value, with `int` results of the operators. -/
def CExpr.eval (env : List Char → Nat) : CExpr → Nat
  | .var w => env w
  | .const n => n
  | .eq a b => if a.eval env = b.eval env then 1 else 0
  | .or a b => if a.eval env ≠ 0 ∨ b.eval env ≠ 0 then 1 else 0

end CSyntax
