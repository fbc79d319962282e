import Routes.Proofs.Grammar.Change
import Routes.Proofs.Grammar.Viable
import Routes.Proofs.Token.Lower
import Routes.RouteData.Compile
/-!
Reading without regard to case. A change of the texts and places of tokens changes what is read of
them, or the token at which reading fails, and nothing else. Main statement: two sources that differ
in the case of letters alone are scanned and read alike, or fail alike.
-/
namespace Routes

namespace Grammar.Change
variable {f : Change} {ts : List Token} {last : Token} {ds : Declarations}

def error (f : Change) (e : ParseError) : ParseError := { e with found := f.token e.found }

theorem step_token (f : Change) (s : Phase) (touches : Bool) (t : Token) :
    s.step touches (f.token t) = s.step touches t := by
  cases s <;> rfl

/-- The phases see nothing of a token but its kind and whether it touches the one before it. -/
theorem reach_map (f : Change) (s : Phase) (before : Option Nat) (ts : List Token) :
    s.reach (before.map (· + f.distance)) (ts.map f.token) =
      (s.reach before ts).mapError f.error := by
  induction ts generalizing s before with
  | nil => rfl
  | cons t ts ih =>
    have htouches : (before.map (· + f.distance) == some (f.token t).position.offset) =
        (before == some t.position.offset) := by
      rw [token, f.offset_place]
      cases before with
      | none => rfl
      | some n => simp
    have hbefore : some (f.token t).endOffset = (some t.endOffset).map (· + f.distance) := by
      simp only [token, Token.endOffset, f.offset_place, Option.map_some, Option.some.injEq]
      omega
    rw [List.map_cons, Phase.reach, htouches, step_token, Phase.reach, hbefore]
    cases s.step (before == some t.position.offset) t with
    | error e => rfl
    | ok s' => exact ih s' _

/-- Changed tokens are read as what was read, changed; reading fails at the same token. -/
theorem ofTokens_map (f : Change) (hts : ∀ t ∈ ts, t.kind ≠ .finish)
    (hlast : last.kind = .finish) : Declarations.ofTokens ((ts ++ [last]).map f.token) =
      ((Declarations.ofTokens (ts ++ [last])).map f.declarations).mapError f.error := by
  have hts' : ∀ t ∈ ts.map f.token, t.kind ≠ .finish := List.forall_mem_map.2 hts
  have hlast' : (f.token last).kind = .finish := hlast
  rw [List.map_append, List.map_singleton]
  cases hread : Declarations.ofTokens (ts ++ [last]) with
  | ok ds =>
    have hsource := ((Declarations.ofTokens_eq_ok_iff hts hlast ds).1 hread).change f
    rw [List.map_append, List.map_singleton] at hsource
    exact (Declarations.ofTokens_eq_ok_iff hts' hlast' _).2 hsource
  | error e =>
    have hreach : Phase.outside.reach none (ts ++ [last]) = .error e := by
      have h := (Cursor.declarations_eq_error_iff (Cursor.bounded_ofTokens _)).1 hread
      rwa [Cursor.ofTokens_concat hts hlast] at h
    have hmap := f.reach_map .outside none (ts ++ [last])
    rw [hreach, List.map_append, List.map_singleton] at hmap
    refine (Cursor.declarations_eq_error_iff (Cursor.bounded_ofTokens _)).2 ?_
    rw [Cursor.ofTokens_concat hts' hlast']
    exact hmap

/-- All texts in lower case. -/
def lowerCase : Change := ⟨fun text => String.ofList (Text.lower text.toList), id, 0, fun _ => rfl⟩

end Grammar.Change

/-- Declarations with their names and literals in lower case. -/
def Declarations.lowered : Declarations → Declarations := Grammar.Change.lowerCase.declarations

/-- Two scans that come to the same tokens but for the case of letters, or to the same error. -/
inductive ScanAlike : Except ScanError (List Token) → Except ScanError (List Token) → Prop
  | ok {ts ts'} : ts.map Token.lowered = ts'.map Token.lowered → ScanAlike (.ok ts) (.ok ts')
  | error {e} : ScanAlike (.error e) (.error e)

/-- Two readings that come to the same declarations but for the case of letters, or that fail at
the same place, where they expect the same. -/
inductive LoadAlike : Except LoadError Declarations → Except LoadError Declarations → Prop
  | ok {ds ds'} : ds.lowered = ds'.lowered → LoadAlike (.ok ds) (.ok ds')
  | scan {e} : LoadAlike (.error (.scan e)) (.error (.scan e))
  | parse {e e' : ParseError} : e.expected = e'.expected → e.position = e'.position →
    e.found.lowered = e'.found.lowered → LoadAlike (.error (.parse e)) (.error (.parse e'))

variable {source source' : String}

theorem Token.scan_lower (source : String) :
    scan (String.ofList (Text.lower source.toList)) = (scan source).map (·.map lowered) := by
  have hmarker : "%".toList.any Char.isAlpha = false := by decide
  have htext : (String.ofList (Text.lower source.toList)).toList = Text.lower source.toList :=
    String.toList_ofList
  rw [scan, scanWith, htext, scanFrom_lower hmarker]
  rfl

theorem Token.scanAlike (h : Text.lower source.toList = Text.lower source'.toList) :
    ScanAlike (scan source) (scan source') := by
  have hscan : (scan source).map (·.map lowered) = (scan source').map (·.map lowered) := by
    rw [← scan_lower, ← scan_lower, h]
  generalize scan source = x at hscan ⊢
  generalize scan source' = y at hscan ⊢
  cases x with
  | ok ts => cases y with
    | ok ts' => exact .ok (Except.ok.inj hscan)
    | error e' => cases hscan
  | error e => cases y with
    | ok ts' => cases hscan
    | error e' =>
      cases hscan
      exact .error

theorem Declarations.ofTokens_lowered {ts : List Token} (h : Token.scan source = .ok ts) :
    ofTokens (ts.map Token.lowered) =
      ((ofTokens ts).map lowered).mapError Grammar.Change.lowerCase.error := by
  obtain ⟨us, last, rfl, hlast, hus⟩ := Token.scanFrom_eq_ok h
  exact Grammar.Change.lowerCase.ofTokens_map (fun t ht => (hus t ht).1) hlast

/-- No word of the language, and no decision of reading it, depends on the case of a letter. -/
theorem Declarations.ofSource_alike (h : Text.lower source.toList = Text.lower source'.toList) :
    ScanAlike (Token.scan source) (Token.scan source') ∧
      LoadAlike (ofSource source) (ofSource source') := by
  refine ⟨Token.scanAlike h, ?_⟩
  have hscan := Token.scanAlike h
  rw [ofSource, ofSource]
  generalize hx : Token.scan source = x at hscan ⊢
  generalize hy : Token.scan source' = y at hscan ⊢
  cases hscan with
  | error => exact .scan
  | @ok ts ts' hts =>
    have hread := ofTokens_lowered hx
    rw [hts, ofTokens_lowered hy] at hread
    show LoadAlike ((ofTokens ts).mapError .parse) ((ofTokens ts').mapError .parse)
    generalize ofTokens ts = v at hread ⊢
    generalize ofTokens ts' = v' at hread ⊢
    cases v with
    | ok ds => cases v' with
      | ok ds' => exact .ok (Except.ok.inj hread).symm
      | error e' => cases hread
    | error e => cases v' with
      | ok ds' => cases hread
      | error e' =>
        obtain ⟨hexpected, hfound⟩ := ParseError.mk.inj (Except.error.inj hread)
        exact .parse hexpected.symm (congrArg Token.position hfound).symm hfound.symm

/-- Words of the language stand in any case, also where they are names, parameters or literals. -/
theorem Declarations.ofSource_alike_mixed :
    Text.lower "CONTROLLER Get ACTIONS Show <- gEt /Int/:ID :DEFAULT END end % Till HERE".toList =
      Text.lower "controller GET Actions show <- GET /INT/:id :default End END % till here".toList ∧
    ScanAlike
      (Token.scan "CONTROLLER Get ACTIONS Show <- gEt /Int/:ID :DEFAULT END end % Till HERE")
      (Token.scan "controller GET Actions show <- GET /INT/:id :default End END % till here") ∧
    LoadAlike (ofSource "CONTROLLER Get ACTIONS Show <- gEt /Int/:ID :DEFAULT END end % Till HERE")
      (ofSource "controller GET Actions show <- GET /INT/:id :default End END % till here") :=
  ⟨by decide, ofSource_alike (by decide)⟩

end Routes
