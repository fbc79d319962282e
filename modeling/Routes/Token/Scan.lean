import Routes.Text.Blank
import Routes.Text.Quoted
import Routes.Token
/-!
Cutting a source text into tokens. At every place each rule proposes a lexeme and the longest one
wins; of two that are equally long the earlier rule wins, in the order symbols, keywords,
identifiers, fragments. White space and comments stand between tokens and are dropped.
-/
namespace Routes

/-- No rule proposes a lexeme at a place. -/
structure ScanError where
  position : Position
  unexpected : Char
deriving DecidableEq, Repr

def ScanError.message (e : ScanError) : String :=
  "lex error at " ++ e.position.label ++ ": unexpected character " ++
    Text.Quoted.character e.unexpected

namespace Token

def isIdentStart (c : Char) : Bool := c.isAlpha || c == '_'

def isIdentChar (c : Char) : Bool := c.isAlphanum || c == '_'

def isFragmentChar (c : Char) : Bool :=
  c.isAlphanum || c == '_' || c == '.' || c == '~' || c == '-'

/-- A kind and the number of characters that a rule proposes for it. -/
abbrev Lexeme := Kind × Nat

/-- The longest of some lexemes; the earlier of two that are equally long. -/
def longest : List Lexeme → Option Lexeme
  | [] => none
  | a :: rest =>
    match longest rest with
    | some b => if a.2 < b.2 then some b else some a
    | none => some a

def symbolAt (cs : List Char) : Option Lexeme :=
  longest ((Symbol.all.filter fun s => s.spelling.toList.isPrefixOf cs).map
    fun s => (.symbol s, s.spelling.toList.length))

/-- A keyword stands at a place in any case of its letters, as a whole word. -/
def keywordStands (word cs : List Char) : Bool :=
  Text.lower (cs.take word.length) == word && !(cs.drop word.length).head?.any isIdentChar

def keywordAt (cs : List Char) : Option Lexeme :=
  longest ((Keyword.all.filter fun (word, _) => keywordStands word.toList cs).map
    fun (word, k) => (.keyword k, word.toList.length))

def identAt (cs : List Char) : Option Lexeme :=
  if cs.head?.any isIdentStart then some (.ident, (cs.takeWhile isIdentChar).length) else none

def fragmentAt (cs : List Char) : Option Lexeme :=
  if cs.head?.any isFragmentChar then some (.fragment, (cs.takeWhile isFragmentChar).length)
  else none

def lexemeAt (cs : List Char) : Option Lexeme :=
  longest ([symbolAt cs, keywordAt cs, identAt cs, fragmentAt cs].filterMap id)

theorem longest_mem {ls : List Lexeme} {l : Lexeme} (h : longest ls = some l) : l ∈ ls := by
  induction ls generalizing l with
  | nil => simp [longest] at h
  | cons a rest ih =>
    simp only [longest] at h
    split at h
    · rename_i b hb
      split at h <;> simp_all
    · simp_all

theorem symbolAt_pos {cs : List Char} {l : Lexeme} (h : symbolAt cs = some l) : 0 < l.2 := by
  obtain ⟨s, -, rfl⟩ := List.mem_map.1 (longest_mem h)
  cases s <;> decide

theorem keywordAt_pos {cs : List Char} {l : Lexeme} (h : keywordAt cs = some l) : 0 < l.2 := by
  obtain ⟨⟨w, k⟩, hw, rfl⟩ := List.mem_map.1 (longest_mem h)
  have := (List.mem_filter.1 hw).1
  simp only [Keyword.all, List.mem_cons, Prod.mk.injEq, List.not_mem_nil, or_false] at this
  rcases this with h | h | h | h | h | h | h | h | h | h | h | h <;>
    obtain ⟨rfl, rfl⟩ := h <;> decide

theorem isIdentChar_of_isIdentStart {c : Char} (h : isIdentStart c = true) :
    isIdentChar c = true := by
  simp only [isIdentStart, Bool.or_eq_true] at h
  simp only [isIdentChar, Char.isAlphanum, Bool.or_eq_true]
  exact h.imp Or.inl id

theorem identAt_pos {cs : List Char} {l : Lexeme} (h : identAt cs = some l) : 0 < l.2 := by
  cases cs with
  | nil => simp [identAt] at h
  | cons c cs =>
    by_cases hc : isIdentStart c = true
    · simp only [identAt, List.head?_cons, Option.any_some, hc, if_pos, Option.some.injEq] at h
      simp [← h, isIdentChar_of_isIdentStart hc]
    · simp [identAt, hc] at h

theorem fragmentAt_pos {cs : List Char} {l : Lexeme} (h : fragmentAt cs = some l) : 0 < l.2 := by
  cases cs with
  | nil => simp [fragmentAt] at h
  | cons c cs =>
    by_cases hc : isFragmentChar c = true
    · simp only [fragmentAt, List.head?_cons, Option.any_some, hc, if_pos, Option.some.injEq] at h
      simp [← h, hc]
    · simp [fragmentAt, hc] at h

theorem lexemeAt_pos {cs : List Char} {l : Lexeme} (h : lexemeAt cs = some l) : 0 < l.2 := by
  obtain ⟨o, ho, hl⟩ := List.mem_filterMap.1 (longest_mem h)
  simp only [id] at hl
  subst hl
  simp only [List.mem_cons, List.not_mem_nil, or_false] at ho
  rcases ho with h | h | h | h
  · exact symbolAt_pos h.symm
  · exact keywordAt_pos h.symm
  · exact identAt_pos h.symm
  · exact fragmentAt_pos h.symm

/-- Splits off the white space and the comments at the beginning. A comment runs from the marker
to the end of its line; `inComment` says whether one is open. An empty marker opens none. -/
def splitTrivia (marker : List Char) (inComment : Bool) : List Char → List Char × List Char
  | [] => ([], [])
  | c :: cs =>
    if Text.isBlank c && (!inComment || c == '\n') then
      (splitTrivia marker false cs).map (c :: ·) id
    else if inComment || (!marker.isEmpty && marker.isPrefixOf (c :: cs)) then
      (splitTrivia marker true cs).map (c :: ·) id
    else ([], c :: cs)

theorem splitTrivia_append (marker : List Char) (b : Bool) (cs : List Char) :
    (splitTrivia marker b cs).1 ++ (splitTrivia marker b cs).2 = cs := by
  induction cs generalizing b with
  | nil => rfl
  | cons c cs ih =>
    simp only [splitTrivia]
    split
    · simp [Prod.map, ih]
    · split <;> simp [Prod.map, ih]

theorem splitTrivia_length (marker : List Char) (b : Bool) (cs : List Char) :
    (splitTrivia marker b cs).2.length ≤ cs.length := by
  have h := congrArg List.length (splitTrivia_append marker b cs)
  simp only [List.length_append] at h
  omega

/-- The tokens of a text that begins at a place. -/
def scanFrom (marker : List Char) (p : Position) (cs : List Char) :
    Except ScanError (List Token) :=
  match _hs : splitTrivia marker false cs with
  | (blank, []) => .ok [finishAt (p.advance blank)]
  | (blank, c :: rest) =>
    match _hl : lexemeAt (c :: rest) with
    | none => .error ⟨p.advance blank, c⟩
    | some (kind, n) =>
      let text := (c :: rest).take n
      let token : Token := ⟨kind, String.ofList text, p.advance blank, Text.byteLength text⟩
      (scanFrom marker (p.advance (blank ++ text)) ((c :: rest).drop n)).map (token :: ·)
termination_by cs.length
decreasing_by
  have h₁ := lexemeAt_pos _hl
  have h₂ := splitTrivia_length marker false cs
  rw [_hs] at h₂
  simp only [List.length_cons, List.length_drop] at h₁ h₂ ⊢
  omega

/-- The tokens of a source text, the end of the input last. -/
def scanWith (marker source : String) : Except ScanError (List Token) :=
  scanFrom marker.toList .start source.toList

/-- Comments begin with `%`. -/
def scan (source : String) : Except ScanError (List Token) := scanWith "%" source

end Token
end Routes
