/-!
# Templates with whitespace control

A template is a sequence of pieces: text, expressions, and block tags for loops and
conditions. `Jinja.control` is what `trim_blocks` and `lstrip_blocks` do to its text, before
anything is evaluated: the newline behind a block tag goes, and so do blanks that are all
there is between the start of a line and a block tag. `Jinja.parse` finds the matching tags
and `Jinja.renderAll` evaluates, in an interpretation of the expressions, conditions and
loops.
-/

namespace Jinja

variable {E C L X : Type}

inductive Piece (E C L : Type) where
  | text (s : List Char)
  | expr (e : E)
  | forIn (l : L)
  | endFor
  | ifThen (c : C)
  | otherwise
  | endIf

/-- `{% … %}`. -/
def Piece.isTag : Piece E C L → Bool
  | .text _ | .expr _ => false
  | .forIn _ | .endFor | .ifThen _ | .otherwise | .endIf => true

/-! ## Whitespace control -/

/-- The newline behind a block tag. -/
def trimNewline : List Char → List Char
  | '\n' :: s => s
  | s => s

/-- The last line of a text, which stands before a block tag, goes if there is nothing but
blanks in it. `atStart` says that the text itself starts a line. -/
def lstripLine (atStart : Bool) (s : List Char) : List Char :=
  let last := (s.reverse.takeWhile (· != '\n')).reverse
  let front := s.take (s.length - last.length)
  if (atStart || !front.isEmpty) && last.all (fun c => c == ' ' || c == '\t') then front else s

/-- `trim_blocks` and `lstrip_blocks`. `atStart` says that the next text starts a line,
`behindTag` that it stands behind a block tag. -/
def control (atStart behindTag : Bool) : List (Piece E C L) → List (Piece E C L)
  | [] => []
  | .text s :: rest =>
    let trimmed := if behindTag then trimNewline s else s
    let newLine := atStart || (behindTag && s.head? == some '\n')
    let tagAhead := (rest.head?).any Piece.isTag
    .text (if tagAhead then lstripLine newLine trimmed else trimmed) :: control false false rest
  | .expr e :: rest => .expr e :: control false false rest
  | tag :: rest => tag :: control false true rest

/-! ## Parsing -/

inductive Node (E C L : Type) where
  | text (s : List Char)
  | expr (e : E)
  | loop (l : L) (body : List (Node E C L))
  | cond (c : C) (thenBody elseBody : List (Node E C L))

/-- A block that has been opened. -/
inductive Frame (E C L : Type) where
  | loop (l : L)
  | thenPart (c : C)
  | elsePart (c : C) (thenBody : List (Node E C L))

/-- `nodes` is what has been read of the innermost block; `outer` are the blocks around
it, each with what had been read before it. -/
def parse : List (Frame E C L × List (Node E C L)) → List (Node E C L) → List (Piece E C L) →
    Option (List (Node E C L))
  | [], nodes, [] => some nodes
  | outer, nodes, .text s :: rest => parse outer (nodes ++ [.text s]) rest
  | outer, nodes, .expr e :: rest => parse outer (nodes ++ [.expr e]) rest
  | outer, nodes, .forIn l :: rest => parse ((.loop l, nodes) :: outer) [] rest
  | outer, nodes, .ifThen c :: rest => parse ((.thenPart c, nodes) :: outer) [] rest
  | (.loop l, before) :: outer, nodes, .endFor :: rest =>
    parse outer (before ++ [.loop l nodes]) rest
  | (.thenPart c, before) :: outer, nodes, .otherwise :: rest =>
    parse ((.elsePart c nodes, before) :: outer) [] rest
  | (.thenPart c, before) :: outer, nodes, .endIf :: rest =>
    parse outer (before ++ [.cond c nodes []]) rest
  | (.elsePart c thenBody, before) :: outer, nodes, .endIf :: rest =>
    parse outer (before ++ [.cond c thenBody nodes]) rest
  | _, _, _ => none

/-! ## Rendering -/

/-- What expressions, conditions and loops mean in a context `X`; a loop's body is
rendered in one context for each of its items. -/
structure Interp (E C L X : Type) where
  eval : X → E → List Char
  test : X → C → Bool
  items : X → L → List X

mutual

def Node.render (interp : Interp E C L X) (x : X) : Node E C L → List Char
  | .text s => s
  | .expr e => interp.eval x e
  | .loop l body => (interp.items x l).flatMap fun item => renderAll interp item body
  | .cond c thenBody elseBody =>
    if interp.test x c then renderAll interp x thenBody else renderAll interp x elseBody

def renderAll (interp : Interp E C L X) (x : X) : List (Node E C L) → List Char
  | [] => []
  | node :: nodes => node.render interp x ++ renderAll interp x nodes

end

/-- The text of a template; `none` if its tags do not match. -/
def render? (interp : Interp E C L X) (x : X) (template : List (Piece E C L)) :
    Option (List Char) :=
  (parse [] [] (control true false template)).map (renderAll interp x)

end Jinja
