import Routes.Proofs.Token.Takes
/-!
Scanning without regard to case. Main statement: the tokens of a text in lower case are those of the
text with their spellings in lower case, and where the one cannot be scanned, the other cannot be
either, for the same character.
-/
namespace Routes.Token
open Text (lower)
variable {c : Char} {cs marker : List Char}

section Lower
variable {p : Char → Bool} (hp : ∀ c, p c.toLower = p c)
include hp

theorem any_head?_lower (cs : List Char) : (lower cs).head?.any p = cs.head?.any p := by
  cases cs with
  | nil => rfl
  | cons c cs => exact hp c

theorem length_takeWhile_lower (cs : List Char) :
    ((lower cs).takeWhile p).length = (cs.takeWhile p).length := by
  have hcomp : p ∘ Char.toLower = p := funext hp
  rw [lower, List.takeWhile_map, hcomp, List.length_map]

end Lower

theorem symbolAt_lower (cs : List Char) : symbolAt (lower cs) = symbolAt cs := by
  have hsymbols : ∀ s : Symbol, s.spelling.toList.any Char.isAlpha = false := by
    intro s
    cases s <;> decide
  have hprefix : ∀ s : Symbol,
      s.spelling.toList.isPrefixOf (lower cs) = s.spelling.toList.isPrefixOf cs :=
    fun s => Text.isPrefixOf_lower (hsymbols s) cs
  simp only [symbolAt, hprefix]

theorem keywordStands_lower (word cs : List Char) :
    keywordStands word (lower cs) = keywordStands word cs := by
  have htake : lower ((lower cs).take word.length) = lower (cs.take word.length) := by
    rw [lower, lower, ← List.map_take, ← lower, ← lower, Text.lower_lower]
  have hdrop : (lower cs).drop word.length = lower (cs.drop word.length) := List.map_drop.symm
  rw [keywordStands, keywordStands, htake, hdrop, any_head?_lower isIdentChar_toLower]

/-- No rule looks at the case of a letter. -/
theorem lexemeAt_lower (cs : List Char) : lexemeAt (lower cs) = lexemeAt cs := by
  have hkeyword : keywordAt (lower cs) = keywordAt cs := by
    simp only [keywordAt, keywordStands_lower]
  have hident : identAt (lower cs) = identAt cs := by
    rw [identAt, identAt, any_head?_lower isIdentStart_toLower,
      length_takeWhile_lower isIdentChar_toLower]
  have hfragment : fragmentAt (lower cs) = fragmentAt cs := by
    rw [fragmentAt, fragmentAt, any_head?_lower isFragmentChar_toLower,
      length_takeWhile_lower isFragmentChar_toLower]
  rw [lexemeAt, symbolAt_lower, hkeyword, hident, hfragment, lexemeAt]

theorem splitTrivia_lower (hmarker : marker.any Char.isAlpha = false) (b : Bool) (cs : List Char) :
    splitTrivia marker b (lower cs) = (splitTrivia marker b cs).map lower lower := by
  induction cs generalizing b with
  | nil => rfl
  | cons c cs ih =>
    have hprefix : marker.isPrefixOf (c.toLower :: lower cs) = marker.isPrefixOf (c :: cs) :=
      Text.isPrefixOf_lower hmarker (c :: cs)
    have hline : (c.toLower == '\n') = (c == '\n') := by
      rw [BEq.comm, Text.beq_toLower (by decide), BEq.comm]
    rw [lower, List.map_cons, ← lower, splitTrivia, splitTrivia, Text.isBlank_toLower, hprefix,
      hline, ih, ih]
    split
    · rfl
    · split <;> rfl

/-- A token with its spelling in lower case. -/
def lowered (t : Token) : Token := { t with text := String.ofList (lower t.text.toList) }

theorem splitTrivia_lower_eq {blank rest : List Char} (hmarker : marker.any Char.isAlpha = false)
    (h : splitTrivia marker false cs = (blank, rest)) :
    splitTrivia marker false (lower cs) = (lower blank, lower rest) := by
  rw [splitTrivia_lower hmarker, h]
  rfl

/-- A character that begins no lexeme is no letter. -/
theorem toLower_of_lexemeAt (h : lexemeAt (c :: cs) = none) : c.toLower = c := by
  refine Text.toLower_of_isAlpha_eq_false (Bool.eq_false_iff.2 fun halpha => ?_)
  have hstart : isIdentStart c = true := by rw [isIdentStart, halpha, Bool.true_or]
  have hfragment := isFragmentChar_of_isIdentChar (isIdentChar_of_isIdentStart hstart)
  rw [(lexemeAt_eq_none_iff.1 h).1] at hfragment
  cases hfragment

theorem scanFrom_lower (hmarker : marker.any Char.isAlpha = false) (p : Position)
    (cs : List Char) :
    scanFrom marker p (lower cs) = (scanFrom marker p cs).map (·.map lowered) := by
  fun_induction scanFrom marker p cs with
  | case1 p cs blank hs =>
    rw [scanFrom_done (splitTrivia_lower_eq hmarker hs), Position.advance_lower]
    rfl
  | case2 p cs blank c rest hs hl =>
    rw [scanFrom_error (splitTrivia_lower_eq hmarker hs) ((lexemeAt_lower _).trans hl),
      Position.advance_lower, toLower_of_lexemeAt hl]
    rfl
  | case3 p cs blank c rest hs k n hl text token ih =>
    have htext : (lower (c :: rest)).take n = lower text := List.map_take.symm
    have hrest : (lower (c :: rest)).drop n = lower ((c :: rest).drop n) := List.map_drop.symm
    have hblank : lower blank ++ lower text = lower (blank ++ text) := List.map_append.symm
    have hstep : scanFrom marker p (lower cs) =
        (scanFrom marker (p.advance (lower blank ++ (lower (c :: rest)).take n))
          ((lower (c :: rest)).drop n)).map (⟨k, String.ofList ((lower (c :: rest)).take n),
            p.advance (lower blank), Text.byteLength ((lower (c :: rest)).take n)⟩ :: ·) :=
      scanFrom_token (splitTrivia_lower_eq hmarker hs) ((lexemeAt_lower (c :: rest)).trans hl)
    have htoken : (⟨k, String.ofList (lower text), p.advance blank, Text.byteLength text⟩ : Token) =
        token.lowered := by
      rw [lowered, String.toList_ofList]
    rw [hstep, htext, hrest, hblank, Position.advance_lower, Position.advance_lower,
      Text.byteLength_lower, htoken, ih]
    cases scanFrom marker (p.advance (blank ++ text)) ((c :: rest).drop n) <;> rfl

end Routes.Token
