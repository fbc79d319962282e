import Routes.Text.Percent
import Routes.Yaml.Character
import Routes.Yaml.Kind
/-!
How a text is written as a scalar. It is plain where that reads as the same text; a text of several
lines is a block; of the quotes the single ones are taken unless something needs an escape.
-/
namespace Routes.Yaml

def isPrintable (c : Char) : Bool :=
  let n := c.toNat
  n == 0x0A || (0x20 ≤ n && n ≤ 0x7E) || (0xA0 ≤ n && n ≤ 0xFFFD && n != 0xFEFF) || 0x10000 ≤ n

/-- A character that has a meaning of its own at the front of a scalar. -/
def indicates (c : Char) (next : List Char) : Bool :=
  ['#', ',', '[', ']', '\x7b', '\x7d', '&', '*', '!', '|', '>', '\'', '"', '%', '@',
    '\x60'].contains c ||
  ((c == '?' || c == ':' || c == '-') && atSpace next)

/-- A colon before white space or a hash behind it. -/
def separates (afterSpace : Bool) : List Char → Bool
  | [] => false
  | c :: cs =>
    (c == ':' && atSpace cs) || (c == '#' && afterSpace) || separates (isSpace c) cs

/-- Two neighbours in a text of which the first and the second fulfil conditions. -/
def hasPair (p q : Char → Bool) : List Char → Bool
  | a :: b :: cs => (p a && q b) || hasPair p q (b :: cs)
  | _ => false

def isMark (c : Char) : Bool := c == ' ' || isBreak c

def mayBePlain (cs : List Char) : Bool :=
  match cs with
  | [] => false
  | c :: next =>
    !indicates c next && !separates (isSpace c) next && !"---".toList.isPrefixOf cs &&
      !"...".toList.isPrefixOf cs && cs.all (fun d => isPrintable d && !isBreak d) &&
      c != ' ' && cs.getLast? != some ' '

def maySingle (cs : List Char) : Bool :=
  cs.all isPrintable && !hasPair isBreak (· == ' ') cs && !hasPair (· == ' ') isBreak cs

def mayBlock (cs : List Char) : Bool :=
  cs.all isPrintable && !hasPair (· == ' ') isBreak cs && cs.getLast? != some ' '

def spaces (n : Nat) : List Char := List.replicate n ' '

/-- A text with each line but the first indented. -/
def indented (indent : Nat) (lineStart : Bool) : List Char → List Char
  | [] => []
  | c :: cs =>
    if isBreak c then c :: indented indent true cs
    else (if lineStart then spaces indent else []) ++ c :: indented indent false cs

def single (indent : Nat) (cs : List Char) : List Char :=
  let doubled := cs.flatMap fun c => if c == '\'' then ['\'', '\''] else [c]
  '\'' :: (indented indent false doubled ++
    (if cs.getLast?.any isBreak then spaces indent else []) ++ ['\''])

/-- `width` hexadecimal digits. -/
def hex (width n : Nat) : List Char :=
  (List.range width).reverse.map fun i => Text.Percent.hexDigit (n / Nat.pow 16 i % 16)

def escape (c : Char) : List Char :=
  let letter? : Option Char := match c with
    | '\x00' => some '0'
    | '\x07' => some 'a'
    | '\x08' => some 'b'
    | '\t' => some 't'
    | '\n' => some 'n'
    | '\x0b' => some 'v'
    | '\x0c' => some 'f'
    | '\r' => some 'r'
    | '\x1b' => some 'e'
    | '"' => some '"'
    | '\\' => some '\\'
    | '\x85' => some 'N'
    | '\u2028' => some 'L'
    | '\u2029' => some 'P'
    | _ => none
  match letter? with
  | some l => ['\\', l]
  | none =>
    if isPrintable c then [c]
    else if c.toNat ≤ 0xFF then '\\' :: 'x' :: hex 2 c.toNat
    else if c.toNat ≤ 0xFFFF then '\\' :: 'u' :: hex 4 c.toNat
    else '\\' :: 'U' :: hex 8 c.toNat

def double (cs : List Char) : List Char := '"' :: (cs.flatMap escape ++ ['"'])

/-- What becomes of the last line break: nothing stands for one break, a dash for none, and a plus
for more. -/
def chomping (cs : List Char) : List Char :=
  match cs.reverse with
  | a :: b :: _ => if !isBreak a then ['-'] else if isBreak b then ['+'] else []
  | [a] => if isBreak a then ['+'] else ['-']
  | [] => ['-']

def block (indent : Nat) (cs : List Char) : List Char :=
  '|' :: ((if cs.head?.any isMark then ['2'] else []) ++ chomping cs ++
    '\n' :: indented indent true cs)

/-- A text as a scalar, and the end of its line. -/
def spell (indent : Nat) (s : String) : List Char :=
  let cs := s.toList
  if cs.contains '\n' then
    if mayBlock cs then
      block indent cs ++ (if cs.getLast?.any isBreak then [] else ['\n'])
    else double cs ++ ['\n']
  else if !readsOtherwise s && mayBePlain cs then cs ++ ['\n']
  else if maySingle cs then single indent cs ++ ['\n']
  else double cs ++ ['\n']

end Routes.Yaml
