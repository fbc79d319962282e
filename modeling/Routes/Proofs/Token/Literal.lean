import Routes.Proofs.Position
import Routes.Proofs.Token.Lexes
/-!
How far single tokens go. A literal token takes the whole run at its place, so two of them never
stand side by side, and the marker takes eight bytes in any case of its letters.
-/
namespace Routes.Token
open Text (byteLength)

/-- Identifiers, words that are keywords, and fragments. -/
def IsLiteral (t : Token) : Prop := t.isWord = true ∨ t.kind = .fragment

/-- Two literal tokens have a gap between them. -/
def Apart (t u : Token) : Prop := IsLiteral t → IsLiteral u → t.endOffset < u.position.offset

variable {marker rest cs last w : List Char} {p q : Position} {us : List Token} {k : Kind}

theorem Takes.isWholeRun (h : Takes w k rest) {s : String} {n : Nat}
    (hk : IsLiteral ⟨k, s, p, n⟩) : IsWholeRun w rest := by
  cases h with
  | arrow | marker | symbol => rcases hk with hk | hk <;> cases hk
  | keyword hw | ident hw | fragment hw => exact hw

theorem Lexes.head_apart (h : Lexes marker p cs us q last) : ∀ t ∈ us.head?, IsLiteral t →
    (∀ c ∈ cs.head?, isFragmentChar c = false) → p.offset < t.position.offset := by
  cases h with
  | stop => simp
  | @token _ gap w k rest ts _ _ _ _ htakes _ =>
    intro t ht hliteral hstop
    obtain rfl := Option.some.inj ht
    cases gap with
    | nil =>
      obtain ⟨c, w, rfl⟩ := List.exists_cons_of_ne_nil htakes.ne_nil
      have hc : isFragmentChar c = false := hstop c rfl
      rw [(htakes.isWholeRun hliteral).run.2 c List.mem_cons_self] at hc
      cases hc
    | cons g gap =>
      have hpos := Text.byteLength_pos (List.cons_ne_nil g gap)
      simp only [Position.advance_offset]
      omega

theorem Lexes.apart (h : Lexes marker p cs us q last) : (us ++ [finishAt q]).IsChain Apart := by
  induction h with
  | stop => exact .singleton _
  | @token p gap w k rest ts q last _ _ htakes hlexes ih =>
    have hhead := hlexes.head_apart
    cases ts with
    | nil =>
      refine .cons_cons ?_ ih
      intro _ hfinish
      rcases hfinish with hfinish | hfinish <;> cases hfinish
    | cons u ts =>
      refine .cons_cons ?_ ih
      intro ht hu
      have hlt := hhead u rfl hu (htakes.isWholeRun ht).stops
      rw [Position.advance_offset, Text.byteLength_append] at hlt
      simp only [endOffset, Position.advance_offset]
      omega

/-- The marker is spelled with a colon in front of fragment characters. -/
theorem marker_chars {c : Char} (hc : c ∈ Keyword.marker.spelling.toList) :
    c = ':' ∨ isFragmentChar c = true := by
  have hall : Keyword.marker.spelling.toList.all (fun c => c == ':' || isFragmentChar c) = true := by
    decide
  simpa using List.all_eq_true.1 hall c hc

theorem Takes.marker_size (h : Takes w (.keyword .marker) rest) : byteLength w = 8 := by
  cases h with
  | marker hw =>
    rw [← Text.byteLength_lower, hw]
    decide
  | keyword _ hk => exact absurd rfl hk.1

theorem Lexes.marker_size (h : Lexes marker p cs us q last) :
    ∀ t ∈ us, t.kind = .keyword .marker → t.size = 8 := by
  induction h with
  | stop => simp
  | token _ _ htakes _ ih =>
    intro t ht hk
    rcases List.mem_cons.1 ht with rfl | ht
    · obtain rfl := hk
      exact htakes.marker_size
    · exact ih t ht hk

end Routes.Token
