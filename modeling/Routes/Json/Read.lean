import Routes.Json
import Routes.Text.Percent
/-!
Reading JSON texts. The reader takes one value from the front of a text and leaves the rest; a
whole text is one value with white space around it.
-/
namespace Routes.Json

def isSpace (c : Char) : Bool := c == ' ' || c == '\n' || c == '\t' || c == '\r'

def skipSpace (cs : List Char) : List Char := cs.dropWhile isSpace

/-- What a string literal is made of: characters, and units of UTF-16 that escapes name. -/
inductive Piece where
  | char (c : Char)
  | unit (n : Nat)

/-- Four hexadecimal digits. -/
def hex4? : List Char → Option (Nat × List Char)
  | a :: b :: c :: d :: cs =>
    match [a, b, c, d].mapM Text.Percent.hexValue? with
    | some ds => some (ds.foldl (fun n d => 16 * n + d) 0, cs)
    | none => none
  | _ => none

/-- The rest of a string literal behind its opening quote. -/
def readPieces : List Char → Option (List Piece × List Char)
  | [] => none
  | '"' :: cs => some ([], cs)
  | '\\' :: 'u' :: a :: b :: c :: d :: cs =>
    match hex4? [a, b, c, d] with
    | some (n, _) => (readPieces cs).map fun (ps, rest) => (.unit n :: ps, rest)
    | none => none
  | '\\' :: e :: cs =>
    let plain? := match e with
      | '"' => some '"'
      | '\\' => some '\\'
      | '/' => some '/'
      | 'b' => some '\x08'
      | 'f' => some '\x0c'
      | 'n' => some '\n'
      | 'r' => some '\r'
      | 't' => some '\t'
      | _ => none
    match plain? with
    | some p => (readPieces cs).map fun (ps, rest) => (.char p :: ps, rest)
    | none => none
  | c :: cs =>
    if c.toNat < 0x20 || c == '\\' then none
    else (readPieces cs).map fun (ps, rest) => (.char c :: ps, rest)

def isLead (n : Nat) : Bool := 0xD800 ≤ n && n ≤ 0xDBFF

def isTrail (n : Nat) : Bool := 0xDC00 ≤ n && n ≤ 0xDFFF

/-- The text of a string literal. A leading surrogate needs a trailing one behind it, and a
trailing one a leading one before it. -/
def joinPieces : List Piece → Option (List Char)
  | [] => some []
  | .char c :: ps => (joinPieces ps).map (c :: ·)
  | .unit n :: .unit m :: ps =>
    if isLead n then
      if isTrail m then
        (joinPieces ps).map (Char.ofNat (0x10000 + (n - 0xD800) * 0x400 + (m - 0xDC00)) :: ·)
      else none
    else if isTrail n then none
    else (joinPieces (.unit m :: ps)).map (Char.ofNat n :: ·)
  | .unit n :: ps =>
    if isLead n || isTrail n then none else (joinPieces ps).map (Char.ofNat n :: ·)

def readString (cs : List Char) : Option (Option String × List Char) :=
  (readPieces cs).map fun (ps, rest) => ((joinPieces ps).map String.ofList, rest)

/-- Digits, at least one. -/
def readDigits (cs : List Char) : Option (List Char × List Char) :=
  match cs.takeWhile Char.isDigit with
  | [] => none
  | ds => some (ds, cs.dropWhile Char.isDigit)

/-- An optional exponent. -/
def readExponent (cs : List Char) : Option (List Char × List Char) :=
  match cs with
  | e :: rest =>
    if e == 'e' || e == 'E' then
      match rest with
      | s :: rest' =>
        if s == '+' || s == '-' then (readDigits rest').map fun (ds, r) => (e :: s :: ds, r)
        else (readDigits rest).map fun (ds, r) => (e :: ds, r)
      | [] => none
    else some ([], cs)
  | [] => some ([], [])

/-- An optional fraction and an optional exponent. -/
def readFraction (cs : List Char) : Option (List Char × List Char) :=
  match cs with
  | '.' :: rest =>
    match readDigits rest with
    | some (ds, r) => (readExponent r).map fun (es, r') => ('.' :: ds ++ es, r')
    | none => none
  | _ => readExponent cs

/-- A number without its sign: no digit follows a zero in front. -/
def readUnsigned (cs : List Char) : Option (List Char × List Char) :=
  match cs with
  | '0' :: rest =>
    if rest.head?.any Char.isDigit then none
    else (readFraction rest).map fun (fs, r) => ('0' :: fs, r)
  | _ =>
    match readDigits cs with
    | some (ds, rest) => (readFraction rest).map fun (fs, r) => (ds ++ fs, r)
    | none => none

def readNumber (cs : List Char) : Option (Json × List Char) :=
  match cs with
  | '-' :: rest => (readUnsigned rest).map fun (ds, r) => (.number (String.ofList ('-' :: ds)), r)
  | _ => (readUnsigned cs).map fun (ds, r) => (.number (String.ofList ds), r)

mutual

/-- One value. The number bounds the values and the places between them that are still read. -/
def readValue : Nat → List Char → Option (Json × List Char)
  | 0, _ => none
  | fuel + 1, cs =>
    match skipSpace cs with
    | '"' :: rest => (readString rest).map fun (t, r) => (.string t, r)
    | '[' :: rest =>
      match skipSpace rest with
      | ']' :: r => some (.array [], r)
      | _ => (readItems fuel rest).map fun (items, r) => (.array items, r)
    | '\x7b' :: rest =>
      match skipSpace rest with
      | '\x7d' :: r => some (.object [], r)
      | _ => (readMembers fuel rest).map fun (members, r) => (.object members, r)
    | 'n' :: 'u' :: 'l' :: 'l' :: rest => some (.null, rest)
    | 't' :: 'r' :: 'u' :: 'e' :: rest => some (.bool true, rest)
    | 'f' :: 'a' :: 'l' :: 's' :: 'e' :: rest => some (.bool false, rest)
    | cs => readNumber cs

/-- The items of an array up to its closing bracket. -/
def readItems : Nat → List Char → Option (List Json × List Char)
  | 0, _ => none
  | fuel + 1, cs =>
    match readValue fuel cs with
    | none => none
    | some (item, rest) =>
      match skipSpace rest with
      | ']' :: r => some ([item], r)
      | ',' :: r => (readItems fuel r).map fun (items, r') => (item :: items, r')
      | _ => none

/-- The members of an object up to its closing brace. -/
def readMembers : Nat → List Char → Option (List (Option String × Json) × List Char)
  | 0, _ => none
  | fuel + 1, cs =>
    match skipSpace cs with
    | '"' :: afterQuote =>
      match readString afterQuote with
      | none => none
      | some (key, afterKey) =>
        match skipSpace afterKey with
        | ':' :: afterColon =>
          match readValue fuel afterColon with
          | none => none
          | some (value, rest) =>
            match skipSpace rest with
            | '\x7d' :: r => some ([(key, value)], r)
            | ',' :: r =>
              (readMembers fuel r).map fun (members, r') => ((key, value) :: members, r')
            | _ => none
        | _ => none
    | _ => none

end

/-- The value of a whole text. Each step of the reader takes at least one character. -/
def ofText? (s : String) : Option Json :=
  match readValue (2 * s.length + 2) s.toList with
  | some (j, rest) => if (skipSpace rest).isEmpty then some j else none
  | none => none

end Routes.Json
