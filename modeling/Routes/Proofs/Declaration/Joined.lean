import Routes.Proofs.Declaration.Spelling
import Routes.Proofs.Grammar.Joined
import Routes.Proofs.Token.Stray
/-!
URLs as pieces of a source. Main statement: no gap breaks a URL but between a bracket and the one
that closes it, and a URL without any gap is a piece of its source without white space and comments.
-/
namespace Routes
open Grammar (Adjacent HasUrl IsJoined)
open Text (isBlank)

namespace Token
variable {source : List Char} {f : Token} {ts us : List Token}

/-- Tokens that are written one behind the other in a source, without white space and comments. -/
def StandTogether (source : List Char) (ts : List Token) : Prop :=
  ∃ before after, source = before ++ (ts.flatMap (·.text.toList) ++ after) ∧
    (∀ f ∈ ts.head?, f.position.IsBehind before) ∧
    ∀ c ∈ ts.flatMap (·.text.toList), isBlank c = false ∧ c ≠ '%'

theorem Lexes.chars {marker cs last : List Char} {p q : Position}
    (h : Lexes marker p cs us q last) :
    ∀ t ∈ us, ∀ c ∈ t.text.toList, isBlank c = false ∧ c ≠ '%' := by
  induction h with
  | stop => simp
  | token _ _ htakes _ ih =>
    refine List.forall_mem_cons.2 ⟨fun c hc => ?_, ih⟩
    rw [String.toList_ofList] at hc
    exact htakes.not_blank c hc

/-- Each token says where its text is, and where that of the next one has to begin. -/
theorem text_of_isChain (hstands : ∀ t ∈ f :: ts, t.StandsIn source)
    (hchain : (f :: ts).IsChain Adjacent) :
    ∃ before after, source = before ++ ((f :: ts).flatMap (·.text.toList) ++ after) ∧
      f.position.IsBehind before := by
  induction ts generalizing f with
  | nil =>
    obtain ⟨before, after, hsource, hplace⟩ := (hstands f List.mem_cons_self).text
    exact ⟨before, after, by simpa using hsource, hplace⟩
  | cons t ts ih =>
    rw [List.forall_mem_cons] at hstands
    obtain ⟨hf, hstands⟩ := hstands
    obtain ⟨hadj, hchain⟩ := List.isChain_cons_cons.1 hchain
    obtain ⟨before, after, hsource, hplace⟩ := hf.text
    obtain ⟨before', after', hsource', hplace'⟩ := ih hstands hchain
    have hlength : Text.byteLength (before ++ f.text.toList) = Text.byteLength before' := by
      rw [← hplace'.offset, hadj, endOffset, hf.size, hplace.offset, Text.byteLength_append]
    rw [← List.append_assoc] at hsource
    obtain ⟨-, rfl⟩ := Text.append_inj_of_byteLength (hsource.symm.trans hsource') hlength
    exact ⟨before, after', by rw [hsource, List.flatMap_cons]; simp, hplace⟩

theorem standTogether_of_isChain {source : String} {url : List Token}
    (hscan : scan source = .ok ts) (hurl : url <:+: ts) (hchain : url.IsChain Adjacent) :
    StandTogether source.toList url := by
  obtain ⟨us, q, rfl, hlexes⟩ := scanFrom_eq_ok_iff.1 hscan
  have hstands := (covers_of_lexes hlexes).stands
  have hchars : ∀ t ∈ us ++ [finishAt q], ∀ c ∈ t.text.toList, isBlank c = false ∧ c ≠ '%' := by
    intro t ht
    rcases List.mem_append.1 ht with ht | ht
    · exact hlexes.chars t ht
    · rw [List.mem_singleton.1 ht]
      simp [finishAt]
  have htext : ∃ before after, source.toList =
      before ++ (url.flatMap (·.text.toList) ++ after) ∧
        ∀ f ∈ url.head?, f.position.IsBehind before := by
    cases url with
    | nil => exact ⟨[], source.toList, rfl, by simp⟩
    | cons f url =>
      obtain ⟨before, after, hsource, hplace⟩ :=
        text_of_isChain (fun t ht => hstands t (hurl.mem ht)) hchain
      exact ⟨before, after, hsource, by rintro _ ⟨⟩; exact hplace⟩
  obtain ⟨before, after, hsource, hplace⟩ := htext
  refine ⟨before, after, hsource, hplace, fun c hc => ?_⟩
  obtain ⟨t, ht, hc⟩ := List.mem_flatMap.1 hc
  exact hchars t (hurl.mem ht) c hc

end Token

namespace Declarations

/-- Every action of a source has its URL among the tokens. Outside of brackets nothing stands
between two tokens of the URL, and where that goes for its brackets too it is written in one
piece. -/
theorem urls_ofSource {source : String} {ds : Declarations}
    (h : Declarations.ofSource source = .ok ds) : ∃ ts, Token.scan source = .ok ts ∧
      ∀ c ∈ ds.controllers, ∀ a ∈ c.actions, (∃ url, HasUrl ts a url) ∧
        ∀ url, HasUrl ts a url → IsJoined false url ∧
          ((∀ t ∈ url, t.kind ≠ .symbol .less ∧ t.kind ≠ .symbol .parenOpen) →
            url.IsChain Adjacent) ∧
          (url.IsChain Adjacent → Token.StandTogether source.toList url) := by
  obtain ⟨ts, hscan, hs⟩ := ofSource_eq_ok_iff.1 h
  refine ⟨ts, hscan, fun c hc a ha => ⟨hs.hasUrl c hc a ha, fun url hurl => ?_⟩⟩
  have hjoined := hurl.isUrl.isJoined
  exact ⟨hjoined, hjoined.isChain, Token.standTogether_of_isChain hscan hurl.isInfix⟩

/-- A source with spaces on both sides of the name of a parameter. -/
def spacedSource : String := "controller A actions show <- get /< id > end end"

def spacedAction : ActionDecl := ⟨"show", .get, ⟨true, [.param "id" .text]⟩, false, ⟨1, 22, 21⟩⟩

def spacedUrl : List Token :=
  [⟨.symbol .slash, "/", ⟨1, 34, 33⟩, 1⟩, ⟨.symbol .less, "<", ⟨1, 35, 34⟩, 1⟩,
    ⟨.ident, "id", ⟨1, 37, 36⟩, 2⟩, ⟨.symbol .greater, ">", ⟨1, 40, 39⟩, 1⟩]

def spacedTokens : List Token :=
  [⟨.keyword .controller, "controller", ⟨1, 1, 0⟩, 10⟩, ⟨.ident, "A", ⟨1, 12, 11⟩, 1⟩,
    ⟨.keyword .actions, "actions", ⟨1, 14, 13⟩, 7⟩] ++
  ⟨.ident, "show", ⟨1, 22, 21⟩, 4⟩ :: ⟨.symbol .arrow, "<-", ⟨1, 27, 26⟩, 2⟩ ::
    ⟨.keyword .get, "get", ⟨1, 30, 29⟩, 3⟩ :: (spacedUrl ++ ([] ++
  [⟨.keyword .close, "end", ⟨1, 42, 41⟩, 3⟩, ⟨.keyword .close, "end", ⟨1, 46, 45⟩, 3⟩,
    ⟨.finish, "", ⟨1, 49, 48⟩, 0⟩]))

theorem ofSource_spacedSource :
    Declarations.ofSource spacedSource = .ok ⟨[⟨"A", [spacedAction], false, .start⟩], []⟩ :=
  toOption_eq_some_iff.1 (by decide +kernel)

theorem scan_spacedSource : Token.scan spacedSource = .ok spacedTokens :=
  toOption_eq_some_iff.1 (by decide +kernel)

theorem hasUrl_spacedTokens : HasUrl spacedTokens spacedAction spacedUrl := by
  refine .mk rfl rfl rfl rfl rfl ?_ ?_ .absent
  · exact .absolute rfl (by decide) (.bracket rfl rfl rfl) .done
  · intro last hlast hslash
    cases hlast
    cases hslash

theorem urls_ofSource_spaced : ∃ ds ts, Declarations.ofSource spacedSource = .ok ds ∧
    Token.scan spacedSource = .ok ts ∧
    ∀ c ∈ ds.controllers, ∀ a ∈ c.actions, (∃ url, HasUrl ts a url) ∧
      ∀ url, HasUrl ts a url → IsJoined false url := by
  obtain ⟨ts, hscan, hurls⟩ := urls_ofSource ofSource_spacedSource
  refine ⟨_, ts, ofSource_spacedSource, hscan, fun c hc a ha => ?_⟩
  exact ⟨(hurls c hc a ha).1, fun url hurl => ((hurls c hc a ha).2 url hurl).1⟩

/-- Gaps in brackets are not refused. -/
theorem urls_not_isChain : ¬∀ source ds, Declarations.ofSource source = .ok ds →
    ∃ ts, Token.scan source = .ok ts ∧ ∀ c ∈ ds.controllers, ∀ a ∈ c.actions,
      ∀ url, HasUrl ts a url → url.IsChain Adjacent := by
  intro h
  obtain ⟨ts, hscan, hurls⟩ := h _ _ ofSource_spacedSource
  cases scan_spacedSource.symm.trans hscan
  have hchain := hurls _ List.mem_cons_self _ List.mem_cons_self _ hasUrl_spacedTokens
  revert hchain
  decide

end Declarations
end Routes
