import Routes.Text.Percent
import Routes.Yaml.Character
/-!
Reading scalars. A reader takes a scalar from the front of a text and leaves the rest. Inside plain
and quoted scalars a line break is folded: one counts as a space, and of more the first is dropped.
-/
namespace Routes.Yaml

/-- What white space inside a scalar stands for. -/
def fold (space : List Char) : List Char :=
  match breaksOf space with
  | [] => space
  | ['\n'] => [' ']
  | '\n' :: more => more
  | all => all

/-- White space that belongs to a quoted scalar only if more follows, the latest first. It may
stand behind a line break that a backslash has removed. -/
structure Gap where
  escaped : Bool
  space : List Char

namespace Gap

def empty : Gap := ⟨false, []⟩

def push (g : Gap) (c : Char) : Gap := ⟨g.escaped, c :: g.space⟩

def text (g : Gap) : List Char :=
  if g.escaped then breaksOf g.space.reverse else fold g.space.reverse

def atLineStart (g : Gap) : Bool :=
  match g.space with
  | c :: _ => isBreak c
  | [] => g.escaped

end Gap

/-- Puts a text in front of what was read. -/
def prepend (front : List Char) : List Char × List Char → List Char × List Char
  | (text, rest) => (front ++ text, rest)

/-- The rest of a single-quoted scalar; a quote inside is written twice. -/
def readSingle (gap : Gap) : List Char → Option (List Char × List Char)
  | [] => none
  | '\'' :: '\'' :: cs => (readSingle .empty cs).map (prepend (gap.text ++ ['\'']))
  | c :: cs =>
    if c == '\'' then some (gap.text, cs)
    else if isSpace c then readSingle (gap.push c) cs
    else if gap.atLineStart && atDocumentMark (c :: cs) then none
    else (readSingle .empty cs).map (prepend (gap.text ++ [c]))

/-- The character that a letter stands for behind a backslash. -/
def escaped? (c : Char) : Option Char :=
  match c with
  | '0' => some '\x00'
  | 'a' => some '\x07'
  | 'b' => some '\x08'
  | 't' => some '\t'
  | '\t' => some '\t'
  | 'n' => some '\n'
  | 'v' => some '\x0b'
  | 'f' => some '\x0c'
  | 'r' => some '\r'
  | 'e' => some '\x1b'
  | ' ' => some ' '
  | '"' => some '"'
  | '/' => some '/'
  | '\\' => some '\\'
  | 'N' => some '\x85'
  | '_' => some '\u00a0'
  | 'L' => some '\u2028'
  | 'P' => some '\u2029'
  | _ => none

/-- How many hexadecimal digits follow a letter behind a backslash. -/
def hexDigits? (c : Char) : Option Nat :=
  match c with
  | 'x' => some 2
  | 'u' => some 4
  | 'U' => some 8
  | _ => none

/-- The rest of a double-quoted scalar. Some digits of a code point may still be due, and those
before them have a value. -/
def readDouble (gap : Gap) (due value : Nat) : List Char → Option (List Char × List Char)
  | [] => none
  | '\\' :: '\r' :: '\n' :: cs =>
    if due ≠ 0 then none else (readDouble ⟨true, []⟩ 0 0 cs).map (prepend gap.text)
  | '\\' :: e :: cs =>
    if due ≠ 0 then none
    else if isBreak e then (readDouble ⟨true, []⟩ 0 0 cs).map (prepend gap.text)
    else
      match escaped? e, hexDigits? e with
      | some c, _ => (readDouble .empty 0 0 cs).map (prepend (gap.text ++ [c]))
      | none, some n => (readDouble .empty n 0 cs).map (prepend gap.text)
      | none, none => none
  | c :: cs =>
    if due ≠ 0 then
      match Text.Percent.hexValue? c with
      | none => none
      | some d =>
        let v := 16 * value + d
        if due ≠ 1 then readDouble gap (due - 1) v cs
        else if v.isValidChar then (readDouble .empty 0 0 cs).map (prepend [Char.ofNat v])
        else none
    else if c == '\\' then none
    else if c == '"' then some (gap.text, cs)
    else if isSpace c then readDouble (gap.push c) 0 0 cs
    else if gap.atLineStart && atDocumentMark (c :: cs) then none
    else (readDouble .empty 0 0 cs).map (prepend (gap.text ++ [c]))

def isFlowIndicator (c : Char) : Bool := [',', '[', ']', '\x7b', '\x7d'].contains c

/-- What was read as a plain scalar: its text, whether a line break stood behind it, and the
rest. -/
structure Plain where
  text : List Char
  broken : Bool
  rest : List Char

/-- A plain scalar, begun in some column, whose next lines are to be indented. `gap` is the white
space that was read last, in reverse. -/
def readPlain (flow : Bool) (indent column : Nat) (gap : List Char) : List Char → Option Plain
  | [] => some ⟨[], gap.any isBreak, []⟩
  | c :: cs =>
    if isBreak c then readPlain flow indent 0 (c :: gap) cs
    else if isBlank c then
      if c == '\t' && column < indent && gap.any isBreak then none
      else readPlain flow indent (column + 1) (c :: gap) cs
    else if !gap.isEmpty && (c == '#' || (column == 0 && atDocumentMark (c :: cs)) ||
        (!flow && column < indent)) then
      some ⟨[], gap.any isBreak, c :: cs⟩
    else if flow && c == ':' && cs.head?.any (fun d => isFlowIndicator d || d == '?') then none
    else if (c == ':' && atSpace cs) || (flow && isFlowIndicator c) then
      some ⟨[], gap.any isBreak, c :: cs⟩
    else
      (readPlain flow indent (column + 1) [] cs).map fun p =>
        { p with text := fold gap.reverse ++ c :: p.text }

/-- What becomes of the line breaks at the end of a block scalar. -/
inductive Chomping where
  | strip
  | clip
  | keep
deriving DecidableEq, Repr

/-- The first line of a block scalar behind its indicator: the chomping, the indentation if it is
given, and the lines that follow. -/
def readBlockHeader (cs : List Char) : Option (Chomping × Option Nat × List Char) :=
  let chomping? : List Char → Option Chomping × List Char
    | '+' :: r => (some .keep, r)
    | '-' :: r => (some .strip, r)
    | r => (none, r)
  let increment? : List Char → Option Nat × List Char
    | d :: r => if d.isDigit then (some (d.toNat - 48), r) else (none, d :: r)
    | [] => (none, [])
  let (before, cs) := chomping? cs
  let (increment, cs) := increment? cs
  let (after, cs) := if before.isNone && increment.isSome then chomping? cs else (none, cs)
  let cs := cs.dropWhile isBlank
  let cs := if cs.head? == some '#' then cs.dropWhile (!isBreak ·) else cs
  if increment == some 0 || cs.head?.any (!isBreak ·) then none
  else
    let lines := match cs with
      | '\r' :: '\n' :: r => r
      | _ :: r => r
      | [] => []
    some ((before.or after).getD .clip, increment, lines)

/-- Passes over empty lines: their breaks, and the column of the place where text begins or the
indentation ends. A tab in the indentation is an error. -/
def skipEmpty (indent column : Nat) : List Char → Option (List Char × Nat × List Char)
  | [] => some ([], column, [])
  | '\r' :: '\n' :: cs => (skipEmpty indent 0 cs).map fun (bs, r) => ('\n' :: bs, r)
  | c :: cs =>
    if column < indent && c == ' ' then skipEmpty indent (column + 1) cs
    else if column < indent && c == '\t' then none
    else if isBreak c then (skipEmpty indent 0 cs).map fun (bs, r) => (breaksOf [c] ++ bs, r)
    else some ([], column, c :: cs)

/-- The deepest indentation up to the first line with text. -/
def deepest (column most : Nat) : List Char → Option Nat
  | [] => some (max column most)
  | c :: cs =>
    if c == ' ' then deepest (column + 1) most cs
    else if c == '\t' then none
    else if isBreak c then deepest 0 (max column most) cs
    else some (max column most)

/-- The lines of a block scalar from the first with text on, each with the breaks behind it. -/
def readBlockLines (indent : Nat) :
    Nat → List Char → Option (List (List Char × List Char) × List Char)
  | 0, _ => none
  | fuel + 1, cs =>
    let text := cs.takeWhile (!isBreak ·)
    match skipEmpty indent indent (cs.dropWhile (!isBreak ·)) with
    | none => none
    | some (breaks, column, rest) =>
      if column == indent && !rest.isEmpty then
        (readBlockLines indent fuel rest).map fun (lines, r) => ((text, breaks) :: lines, r)
      else some ([(text, breaks)], rest)

/-- The breaks between two lines of a folded scalar: lines that begin with a blank keep them. -/
def foldBetween (line : List Char) (breaks : List Char) (next : List Char) : List Char :=
  if line.head?.any isBlank || next.head?.any isBlank then breaks
  else
    match breaks with
    | ['\n'] => [' ']
    | '\n' :: more => more
    | all => all

/-- The text of a block scalar. -/
def joinBlock (literal : Bool) (chomping : Chomping) : List (List Char × List Char) → List Char
  | [] => []
  | [(line, breaks)] =>
    match chomping with
    | .strip => line
    | .clip => line ++ breaks.take 1
    | .keep => line ++ breaks
  | (line, breaks) :: next :: more =>
    line ++ (if literal then breaks else foldBetween line breaks next.1) ++
      joinBlock literal chomping (next :: more)

/-- A block scalar behind its indicator, inside blocks of some indentation. -/
def readBlock (literal : Bool) (outer : Option Nat) (cs : List Char) :
    Option (List Char × List Char) := do
  let (chomping, increment, lines) ← readBlockHeader cs
  let least := outer.elim 0 (· + 1)
  let indent ← match increment with
    | some n => some (outer.getD 0 + n)
    | none => (deepest 0 0 lines).map fun n => max (max n least) 1
  let (breaks, column, rest) ← skipEmpty indent 0 lines
  if column == indent && !rest.isEmpty then
    let (body, r) ← readBlockLines indent (rest.length + 1) rest
    return (breaks ++ joinBlock literal chomping body, r)
  else return (if chomping == .keep then breaks else [], rest)

end Routes.Yaml
