import Routes.Text.Percent
import Routes.Toml
import Routes.Toml.Literal
/-!
Reading TOML texts. A reader takes what it reads from the front of a text and leaves the rest.
-/
namespace Routes.Toml

def isBlank (c : Char) : Bool := c == ' ' || c == '\t'

/-- A control character other than the tab. It may not stand in texts and comments. -/
def isControl (c : Char) : Bool := c != '\t' && (c.toNat < 0x20 || c.toNat == 0x7F)

def skipBlanks (cs : List Char) : List Char := cs.dropWhile isBlank

/-- Passes over blanks, line breaks and comments. -/
def skipLines (comment : Bool) : List Char → Option (List Char)
  | [] => some []
  | '\r' :: '\n' :: cs => skipLines false cs
  | c :: cs =>
    if c == '\n' then skipLines false cs
    else if comment then if isControl c then none else skipLines true cs
    else if isBlank c then skipLines false cs
    else if c == '#' then skipLines true cs
    else some (c :: cs)

/-- The next line, when only a comment stands on this one. -/
def endLine (comment : Bool) : List Char → Option (List Char)
  | [] => some []
  | '\r' :: '\n' :: cs => some cs
  | c :: cs =>
    if c == '\n' then some cs
    else if comment then if isControl c then none else endLine true cs
    else if isBlank c then endLine false cs
    else if c == '#' then endLine true cs
    else none

/-- The character that a letter stands for behind a backslash. -/
def escaped? (c : Char) : Option Char :=
  match c with
  | 'b' => some '\x08'
  | 't' => some '\t'
  | 'n' => some '\n'
  | 'f' => some '\x0c'
  | 'r' => some '\r'
  | 'e' => some '\x1b'
  | '"' => some '"'
  | '\\' => some '\\'
  | _ => none

/-- How many hexadecimal digits follow a letter behind a backslash. -/
def hexDigits? (c : Char) : Option Nat :=
  match c with
  | 'x' => some 2
  | 'u' => some 4
  | 'U' => some 8
  | _ => none

def prepend (front : List Char) : List Char × List Char → List Char × List Char
  | (text, rest) => (front ++ text, rest)

/-- The quotes that end a text of several lines: up to two before the last three belong to it. -/
def closeLong (quote : Char) : List Char → List Char × List Char
  | a :: b :: cs =>
    if a == quote && b == quote then ([quote, quote], cs)
    else if a == quote then ([quote], b :: cs)
    else ([], a :: b :: cs)
  | [a] => if a == quote then ([quote], []) else ([], [a])
  | [] => ([], [])

/-- The rest of a text in quotation marks. Some digits of a code point may still be due, and those
before them have a value. -/
def readBasic (due value : Nat) : List Char → Option (List Char × List Char)
  | [] => none
  | '\\' :: e :: cs =>
    if due ≠ 0 then none
    else
      match escaped? e, hexDigits? e with
      | some c, _ => (readBasic 0 0 cs).map (prepend [c])
      | none, some n => readBasic n 0 cs
      | none, none => none
  | c :: cs =>
    if due ≠ 0 then
      match Text.Percent.hexValue? c with
      | none => none
      | some d =>
        let v := 16 * value + d
        if due ≠ 1 then readBasic (due - 1) v cs
        else if v.isValidChar then (readBasic 0 0 cs).map (prepend [Char.ofNat v])
        else none
    else if c == '"' then some ([], cs)
    else if c == '\\' || isControl c then none
    else (readBasic 0 0 cs).map (prepend [c])

/-- The rest of a text of several lines in quotation marks. A backslash at the end of a line removes
the white space behind it, which `trim` says is being passed over. -/
def readLongBasic (due value : Nat) (trim : Bool) : List Char → Option (List Char × List Char)
  | [] => none
  | '"' :: '"' :: '"' :: cs => if due ≠ 0 then none else some (closeLong '"' cs)
  | '\r' :: '\n' :: cs =>
    if due ≠ 0 then none
    else (readLongBasic 0 0 trim cs).map (prepend (if trim then [] else ['\r', '\n']))
  | '\\' :: '\r' :: '\n' :: cs => if due ≠ 0 then none else readLongBasic 0 0 true cs
  | '\\' :: e :: cs =>
    if due ≠ 0 then none
    else if e == '\n' then readLongBasic 0 0 true cs
    else if isBlank e then
      match skipBlanks cs with
      | '\n' :: _ | '\r' :: '\n' :: _ => readLongBasic 0 0 true cs
      | _ => none
    else
      match escaped? e, hexDigits? e with
      | some c, _ => (readLongBasic 0 0 false cs).map (prepend [c])
      | none, some n => readLongBasic n 0 false cs
      | none, none => none
  | c :: cs =>
    if due ≠ 0 then
      match Text.Percent.hexValue? c with
      | none => none
      | some d =>
        let v := 16 * value + d
        if due ≠ 1 then readLongBasic (due - 1) v false cs
        else if v.isValidChar then (readLongBasic 0 0 false cs).map (prepend [Char.ofNat v])
        else none
    else if trim && (c == '\n' || isBlank c) then readLongBasic 0 0 true cs
    else if c == '\\' || (c != '\n' && isControl c) then none
    else (readLongBasic 0 0 false cs).map (prepend [c])

/-- The rest of a text between apostrophes. -/
def readRaw : List Char → Option (List Char × List Char)
  | [] => none
  | c :: cs =>
    if c == '\'' then some ([], cs)
    else if isControl c then none
    else (readRaw cs).map (prepend [c])

/-- The rest of a text of several lines between apostrophes. -/
def readLongRaw : List Char → Option (List Char × List Char)
  | [] => none
  | '\'' :: '\'' :: '\'' :: cs => some (closeLong '\'' cs)
  | '\r' :: '\n' :: cs => (readLongRaw cs).map (prepend ['\r', '\n'])
  | c :: cs =>
    if c != '\n' && isControl c then none else (readLongRaw cs).map (prepend [c])

/-- A line break right behind the opening quotes is dropped. -/
def dropFirstBreak : List Char → List Char
  | '\n' :: cs => cs
  | '\r' :: '\n' :: cs => cs
  | cs => cs

/-- A text of one line, as keys are written too. -/
def readLineText (cs : List Char) : Option (List Char × List Char) :=
  match cs with
  | '"' :: '"' :: '"' :: _ | '\'' :: '\'' :: '\'' :: _ => none
  | '"' :: cs => readBasic 0 0 cs
  | '\'' :: cs => readRaw cs
  | _ => none

def readText (cs : List Char) : Option (List Char × List Char) :=
  match cs with
  | '"' :: '"' :: '"' :: cs => readLongBasic 0 0 false (dropFirstBreak cs)
  | '\'' :: '\'' :: '\'' :: cs => readLongRaw (dropFirstBreak cs)
  | cs => readLineText cs

def isKeyChar (c : Char) : Bool := c.isAlphanum || c == '_' || c == '-'

def readKeyPart (cs : List Char) : Option (String × List Char) :=
  match cs.takeWhile isKeyChar with
  | [] => (readLineText cs).map fun (k, r) => (String.ofList k, r)
  | k => some (String.ofList k, cs.dropWhile isKeyChar)

/-- A dotted key: the parts before the last, the last one, and what follows the blanks behind it. -/
def readKey : Nat → List Char → Option (List String × String × List Char)
  | 0, _ => none
  | fuel + 1, cs =>
    match readKeyPart (skipBlanks cs) with
    | none => none
    | some (part, rest) =>
      match skipBlanks rest with
      | '.' :: more => (readKey fuel more).map fun (path, key, r) => (part :: path, key, r)
      | r => some ([], part, r)

/-- How deep arrays and tables in a line may be nested. -/
def depthLimit : Nat := 80

mutual

/-- One value. The first number bounds the values and the places between them that are still read,
and the second is the depth that is left. -/
def readValue : Nat → Nat → List Char → Option (Value × List Char)
  | 0, _, _ => none
  | fuel + 1, depth, cs =>
    match cs with
    | '"' :: _ | '\'' :: _ => (readText cs).map fun (t, r) => (.text (String.ofList t), r)
    | '[' :: rest =>
      if depth = 0 then none
      else (readItems fuel (depth - 1) rest).map fun (items, r) => (.array items, r)
    | '\x7b' :: rest =>
      if depth = 0 then none
      else (readEntries fuel (depth - 1) [] rest).map fun (es, r) => (.table .inline es, r)
    | cs => (readLiteral cs).map fun (l, r) => (.literal l, r)

/-- The items of an array to its end; a comma may stand behind the last one. -/
def readItems : Nat → Nat → List Char → Option (List Value × List Char)
  | 0, _, _ => none
  | fuel + 1, depth, cs =>
    match skipLines false cs with
    | none => none
    | some (']' :: r) => some ([], r)
    | some cs =>
      match readValue fuel depth cs with
      | none => none
      | some (v, rest) =>
        match skipLines false rest with
        | some (']' :: r) => some ([v], r)
        | some (',' :: r) => (readItems fuel depth r).map fun (vs, r') => (v :: vs, r')
        | _ => none

/-- The entries of a table in a line to its end; a comma may stand behind the last one. -/
def readEntries : Nat → Nat → Entries → List Char → Option (Entries × List Char)
  | 0, _, _, _ => none
  | fuel + 1, depth, es, cs =>
    match skipLines false cs with
    | none => none
    | some ('\x7d' :: r) => some (es, r)
    | some cs =>
      match readEntry fuel depth .inline es cs with
      | none => none
      | some (es, rest) =>
        match skipLines false rest with
        | some ('\x7d' :: r) => some (es, r)
        | some (',' :: r) => readEntries fuel depth es r
        | _ => none

/-- A key and its value, defined in a table. -/
def readEntry : Nat → Nat → Origin → Entries → List Char → Option (Entries × List Char)
  | 0, _, _, _, _ => none
  | fuel + 1, depth, origin, es, cs =>
    match readKey cs.length cs with
    | some (path, key, '=' :: rest) =>
      match readValue fuel depth (skipBlanks rest) with
      | none => none
      | some (v, r) => (es.define origin path key v).map (·, r)
    | _ => none

end

/-- A header without its first bracket. The table that it opens is the current one afterwards. -/
def readHeader (root : Entries) (cs : List Char) : Option (List String × Entries × List Char) :=
  match cs with
  | '[' :: cs =>
    match readKey cs.length cs with
    | some (path, key, ']' :: ']' :: r) =>
      (root.openRow path key).map fun root => (path ++ [key], root, r)
    | _ => none
  | cs =>
    match readKey cs.length cs with
    | some (path, key, ']' :: r) =>
      (root.openTable path key).map fun root => (path ++ [key], root, r)
    | _ => none

/-- The lines of a document, of which each takes at least one character. -/
def readLines : Nat → List String → Entries → List Char → Option Entries
  | 0, _, _, _ => none
  | fuel + 1, current, root, cs =>
    match skipLines false cs with
    | none => none
    | some [] => some root
    | some ('[' :: rest) =>
      match readHeader root rest with
      | none => none
      | some (current, root, r) => (endLine false r).bind (readLines fuel current root)
    | some cs =>
      match readKey cs.length cs with
      | some (path, key, '=' :: rest) =>
        match readValue (2 * cs.length + 2) depthLimit (skipBlanks rest) with
        | none => none
        | some (v, r) =>
          match Entries.change false (fun o es => es.define o path key v) current .header root with
          | none => none
          | some root => (endLine false r).bind (readLines fuel current root)
      | _ => none

/-- The entries of a whole text, at whose beginning a byte order mark may stand. -/
def ofText? (s : String) : Option Entries :=
  let cs := match s.toList with
    | '\ufeff' :: cs => cs
    | cs => cs
  readLines (cs.length + 1) [] [] cs

end Routes.Toml
