import Routes.Proofs.Declaration.Spelling
import Routes.Proofs.Grammar.Append
import Routes.Proofs.Grammar.Change
import Routes.Proofs.Token.Resume
/-!
Sources one below the other. Main statement: a source on a new line behind another one adds what it
declares, at places further on by the lines and bytes in front of it.
-/
namespace Routes
open Grammar (Change)

/-- The same declarations some lines and bytes further on. -/
def Declarations.moved (lines bytes : Nat) (ds : Declarations) : Declarations :=
  (Change.move lines bytes).declarations ds

namespace Token
open Text (byteLength)
variable {marker cs last : List Char} {p q : Position} {us ts : List Token}

/-- A text is scanned alike in the same column of another line. -/
theorem Lexes.moved (h : Lexes marker p cs us q last) (lines bytes : Nat) :
    Lexes marker (p.moved lines bytes) cs (us.map (Change.move lines bytes).token)
      (q.moved lines bytes) last := by
  induction h with
  | @stop p gap rest hgap hplain =>
    rw [← Position.advance_moved]
    exact .stop hgap hplain
  | @token p gap w k rest ts q last hgap hplain htakes _ ih =>
    rw [← Position.advance_moved] at ih
    rw [List.map_cons, Change.token_move, ← Position.advance_moved]
    exact .token hgap hplain htakes ih

theorem scanFrom_moved (h : scanFrom marker p cs = .ok ts) (lines bytes : Nat) :
    scanFrom marker (p.moved lines bytes) cs =
      .ok (ts.map (Change.move lines bytes).token) := by
  obtain ⟨us, q, rfl, hlexes⟩ := scanFrom_eq_ok_iff.1 h
  rw [scanFrom_of_lexes (hlexes.moved lines bytes), List.map_append]
  rfl

theorem toList_append_line (s₁ s₂ : String) :
    (s₁ ++ "\n" ++ s₂).toList = s₁.toList ++ ('\n' :: s₂.toList) := by
  rw [String.toList_append, String.toList_append, List.append_assoc]
  rfl

/-- The tokens of a source with another one on a new line behind it. -/
theorem scan_append_line {s₁ s₂ : String} {ts₁ ts₂ : List Token} (h₁ : scan s₁ = .ok ts₁)
    (h₂ : scan s₂ = .ok ts₂) : ∃ us q, ts₁ = us ++ [finishAt q] ∧
      (∀ t ∈ us.getLast?, t.endOffset ≤ byteLength s₁.toList) ∧
      scan (s₁ ++ "\n" ++ s₂) = .ok (us ++ ts₂.map
        (Change.move (s₁.toList.count '\n' + 1) (byteLength s₁.toList + 1)).token) := by
  rw [scan_eq] at h₁ h₂ ⊢
  obtain ⟨us, q, rfl, hlexes⟩ := scanFrom_eq_ok_iff.1 h₁
  obtain ⟨x, gap, htext, hto, hgap, -, -⟩ := hlexes.exists_lexesTo
  -- The new line ends a comment that is open behind the last token, and begins no token.
  have hline : scanFrom ['%'] (Position.start.advance x) (gap ++ ('\n' :: s₂.toList)) =
      .ok (ts₂.map (Change.move (s₁.toList.count '\n' + 1) (byteLength s₁.toList + 1)).token) := by
    have hgap' := hgap.line s₂.toList
    rw [List.append_nil] at htext
    rw [List.append_cons, scanFrom_of_isGap hgap', ← Position.advance_append,
      ← List.append_assoc, ← htext, Position.advance_line]
    exact scanFrom_moved h₂ _ _
  have hempty : Separates [] := fun c hc => nomatch hc
  have hnew : Separates ('\n' :: s₂.toList) := fun c hc => Option.some.inj hc ▸ rfl
  have hto' := hto.congr (hgap.separates hempty) (hgap.separates hnew)
  refine ⟨us, q, rfl, ?_, ?_⟩
  · intro t ht
    rw [hto.endOffset_last ht, Position.advance_offset, htext]
    simp [Position.start]
  · have htext' : (s₁ ++ "\n" ++ s₂).toList = x ++ (gap ++ ('\n' :: s₂.toList)) := by
      rw [toList_append_line, htext, List.append_nil, List.append_assoc]
    rw [htext', hto'.scanFrom, hline]
    rfl

end Token

/-- Whatever a source ends with, the next line begins another one. -/
theorem Declarations.ofSource_append_line {s₁ s₂ : String} {d₁ d₂ : Declarations}
    (h₁ : ofSource s₁ = .ok d₁) (h₂ : ofSource s₂ = .ok d₂) :
    ofSource (s₁ ++ "\n" ++ s₂) = .ok (d₁.append
      (d₂.moved (s₁.toList.count '\n' + 1) (Text.byteLength s₁.toList + 1))) := by
  obtain ⟨ts₁, hscan₁, hsource₁⟩ := ofSource_eq_ok_iff.1 h₁
  obtain ⟨ts₂, hscan₂, hsource₂⟩ := ofSource_eq_ok_iff.1 h₂
  obtain ⟨us, q, rfl, hends, hscan⟩ := Token.scan_append_line hscan₁ hscan₂
  obtain ⟨u, e, happend, hsource⟩ := hsource₁.append (hsource₂.change (Change.move _ _))
  obtain ⟨rfl, -⟩ := List.append_inj' happend rfl
  refine ofSource_eq_ok_iff.2 ⟨_, hscan, hsource ?_⟩
  -- The line feed stands between the last token of the one and the first of the other.
  intro l hl f hf hadj
  rw [List.head?_map] at hf
  obtain ⟨t, -, rfl⟩ := Option.map_eq_some_iff.1 hf
  have hle := hends l hl
  have hsame : t.position.offset + (Text.byteLength s₁.toList + 1) = l.endOffset := hadj
  omega

/-- A source that ends in a comment, behind a slash and without closing words. -/
def openSource : String := "controller A actions show <- get /a/ % all"

def openDeclarations : Declarations :=
  ⟨[⟨"A", [⟨"show", .get, ⟨true, [.literal "a"]⟩, false, ⟨1, 22, 21⟩⟩], false, .start⟩], []⟩

theorem ofSource_append_open : Declarations.ofSource openSource = .ok openDeclarations ∧
    Declarations.ofSource "default action A#show" = .ok ⟨[], [⟨"A", "show", .start⟩]⟩ ∧
    Declarations.ofSource (openSource ++ "\n" ++ "default action A#show") =
      .ok ⟨openDeclarations.controllers, [⟨"A", "show", ⟨2, 1, 43⟩⟩]⟩ := by
  have hopen : Declarations.ofSource openSource = .ok openDeclarations :=
    toOption_eq_some_iff.1 (by decide +kernel)
  have hdefault : Declarations.ofSource "default action A#show" =
      .ok ⟨[], [⟨"A", "show", .start⟩]⟩ :=
    toOption_eq_some_iff.1 (by decide +kernel)
  have hmoved : openDeclarations.append (Declarations.moved (openSource.toList.count '\n' + 1)
      (Text.byteLength openSource.toList + 1) ⟨[], [⟨"A", "show", .start⟩]⟩) =
      ⟨openDeclarations.controllers, [⟨"A", "show", ⟨2, 1, 43⟩⟩]⟩ := by
    decide
  refine ⟨hopen, hdefault, ?_⟩
  rw [← hmoved]
  exact Declarations.ofSource_append_line hopen hdefault

end Routes
