import Routes.Proofs.Grammar.Relaid
import Routes.Proofs.Token.Notation
/-!
Parameters written in the other notation. Main statement: a source in which one parameter is taken
out of its brackets and put behind a colon declares the same, unless the parameter has the name of
the marker. In that case it does not, for there is one more marker.
-/
namespace Routes
open Grammar (Alike)
open Text (isBlank byteLength lower)
open Token (HasBracketAt IsIdent IsOpening IsShift SpellsKind bracketText colonText isMarker)
variable {x y w : List Char} {kindText : Option (List Char)} {kind : ParamKind}

namespace Token
variable {ts us : List Token} {l l' t : Token} {i j : Nat}

/-- A change of place keeps tokens alike if it moves the token in front of them as well. -/
theorem alike_of_isShift (h : List.Forall₂ (IsShift i j) ts us)
    (hl : l.endOffset + j = l'.endOffset + i) : Alike l l' ts us := by
  refine (isRelaid_of_isShift h).alike fun t ht u hu => ?_
  cases h with
  | nil => cases ht
  | cons htu _ =>
    cases ht
    cases hu
    have hoffset := htu.offset
    rw [Grammar.Adjacent, Grammar.Adjacent]
    omega

theorem countP_of_isShift (h : List.Forall₂ (IsShift i j) ts us) :
    ts.countP isMarker = us.countP isMarker := by
  induction h with
  | nil => rfl
  | cons htu _ ih => rw [List.countP_cons, List.countP_cons, ih, isMarker, isMarker, htu.kind]

theorem scan_ofList (cs : List Char) : scan (String.ofList cs) = scanFrom ['%'] .start cs := by
  rw [scan_eq, String.toList_ofList]

/-- The tokens in front of a parameter do not depend on its notation. -/
theorem exists_scanFrom_front {z : List Char} (hz : IsOpening z)
    (hscan : scan (String.ofList (x ++ z)) = .ok ts) (ht : t ∈ ts) (hless : t.kind = .symbol .less)
    (hplace : t.position.offset = byteLength x) : ∃ us, ∀ z', IsOpening z' →
      scanFrom ['%'] .start (x ++ z') =
        (scanFrom ['%'] (Position.start.advance x) z').map (us ++ ·) := by
  rw [scan_ofList] at hscan
  obtain ⟨us, q, rfl, hlexes⟩ := scanFrom_eq_ok_iff.1 hscan
  have hmem : t ∈ us := by
    rcases List.mem_append.1 ht with ht | ht
    · exact ht
    · rw [List.mem_singleton.1 ht] at hless
      cases hless
  obtain ⟨front, x', rest, hfront, happend, hposition⟩ := hlexes.upTo hmem
  have hlength : byteLength x = byteLength x' := by
    rw [← hplace, hposition, Position.advance_offset]
    exact Nat.zero_add _
  obtain ⟨rfl, rfl⟩ := Text.append_inj_of_byteLength happend hlength
  refine ⟨front, fun z' hz' => ?_⟩
  obtain ⟨x', happend, hfront'⟩ := hfront.of_opening hz hz'
  obtain rfl := List.append_cancel_right happend
  exact scanFrom_resume hfront'

theorem isOpening_bracketText (w : List Char) (kindText : Option (List Char)) (y : List Char) :
    IsOpening (bracketText w kindText ++ y) := by
  cases kindText <;> exact .inl rfl

theorem isOpening_colonText (w : List Char) (kindText : Option (List Char)) (y : List Char) :
    IsOpening (colonText w kindText ++ y) := by
  cases kindText <;> exact .inr rfl

/-- The tokens of a source with a parameter in brackets, and those with another text in its
place. -/
theorem exists_scan_notations {z : List Char} (hw : IsIdent w) (hkind : SpellsKind kindText kind)
    (hscan : scan (String.ofList (x ++ (bracketText w kindText ++ y))) = .ok ts) (ht : t ∈ ts)
    (hless : t.kind = .symbol .less) (hplace : t.position.offset = byteLength x)
    (hz : IsOpening (z ++ y)) : ∃ us b bs vs vs', ts = us ++ (b :: (bs ++ vs)) ∧
      b.kind = .symbol .less ∧ b.position = Position.start.advance x ∧
      Grammar.IsPart b bs (.param (String.ofList w) kind) ∧
      (bs.getLastD b).endOffset =
        ((Position.start.advance x).advance (bracketText w kindText)).offset ∧
      List.Forall₂ (IsShift ((Position.start.advance x).advance (bracketText w kindText)).offset
        ((Position.start.advance x).advance z).offset) vs vs' ∧
      ∀ cs, ScansAs (Position.start.advance x) z cs y →
        scan (String.ofList (x ++ (z ++ y))) = .ok (us ++ (cs ++ vs')) := by
  have hopening := isOpening_bracketText w kindText y
  obtain ⟨us, hfront⟩ := exists_scanFrom_front hopening hscan ht hless hplace
  obtain ⟨b, bs, hbracket, hpart, hb, hbplace⟩ :=
    scansAs_bracket hw hkind (Position.start.advance x) y
  rw [scan_ofList, hfront _ hopening, hbracket.scan] at hscan
  obtain ⟨_, hfirst, rfl⟩ := map_eq_ok.1 hscan
  obtain ⟨vs, hvs, rfl⟩ := map_eq_ok.1 hfirst
  obtain ⟨vs', hvs', hshift⟩ := scanFrom_shift hvs ((Position.start.advance x).advance z)
  refine ⟨us, b, bs, vs, vs', rfl, hb, hbplace, hpart, hbracket.endOffset_last, hshift, ?_⟩
  intro cs hcs
  rw [scan_ofList, hfront _ hz, hcs.scan, hvs']
  rfl

end Token

namespace Declarations

/-- The two notations of a parameter mean the same just where the parameter does not have the name
of the marker. -/
theorem ofSource_colonText {ds : Declarations} (hw : IsIdent w) (hkind : SpellsKind kindText kind)
    (hy : ∀ c ∈ y.head?, c = '/' ∨ isBlank c = true)
    (hds : ofSource (String.ofList (x ++ (bracketText w kindText ++ y))) = .ok ds)
    (hparam : HasBracketAt (String.ofList (x ++ (bracketText w kindText ++ y))) (byteLength x)) :
    (∃ ds', ofSource (String.ofList (x ++ (colonText w kindText ++ y))) = .ok ds' ∧
      ds'.unplaced = ds.unplaced) ↔ lower w ≠ "default".toList := by
  have hrest : ∀ c ∈ y.head?, Token.isFragmentChar c = false := by
    intro c hc
    rw [Bool.eq_false_iff]
    intro hfragment
    rcases hy c hc with rfl | hblank
    · cases hfragment
    · cases (Token.isBlank_of_isFragmentChar hfragment).1.symm.trans hblank
  obtain ⟨ts, hscan, t, ht, hless, hplace⟩ := hparam
  obtain ⟨ts', hscan', hsource⟩ := ofSource_eq_ok_iff.1 hds
  cases hscan.symm.trans hscan'
  obtain ⟨us, b, bs, vs, vs', rfl, hb, hbplace, hpart, hbend, hshift, hcolon⟩ :=
    Token.exists_scan_notations hw hkind hscan ht hless hplace
      (Token.isOpening_colonText w kindText y)
  constructor
  · -- The text behind the colon is scanned as a marker, so that one more default is declared.
    intro h hdefault
    obtain ⟨ds', hds', hunplaced⟩ := h
    obtain ⟨cs, hcs, hcount⟩ := Token.scansAs_marker hkind hdefault (Position.start.advance x) hrest
    obtain ⟨ts', hscan', hsource'⟩ := ofSource_eq_ok_iff.1 hds'
    cases (hcolon cs hcs).symm.trans hscan'
    have hmarks : ds'.markCount = ds.markCount := by
      rw [← markCount_unplaced, hunplaced, markCount_unplaced]
    rw [← hsource'.markers, ← hsource.markers, ← List.cons_append] at hmarks
    simp only [List.countP_append, hcount, hpart.markers, Token.countP_of_isShift hshift] at hmarks
    omega
  · -- Both texts are scanned as the same parameter, and all behind it moves by the same distance.
    intro hdefault
    obtain ⟨q, qs, hcs, hpart', hq, hqplace⟩ :=
      Token.scansAs_colon hw hkind hdefault (Position.start.advance x) hrest
    have hvs : Alike (bs.getLastD b) (qs.getLastD q) vs vs' := by
      refine Token.alike_of_isShift hshift ?_
      rw [hbend, hcs.endOffset_last]
      exact Nat.add_comm _ _
    have halike : Alike (Token.finishAt .zero) (Token.finishAt .zero) (us ++ b :: (bs ++ vs))
        (us ++ q :: (qs ++ vs')) := by
      refine .append_left us (.param hb hq hpart hpart' ?_ hvs)
      rw [Grammar.Adjacent, Grammar.Adjacent, hbplace, hqplace]
    obtain ⟨ds', hsource', hunplaced⟩ := hsource.alike halike
    exact ⟨ds', ofSource_eq_ok_iff.2 ⟨_, hcolon (q :: qs) hcs, hsource'⟩, hunplaced⟩

/-- The beginning of a source, up to a parameter. -/
def beforeParam : List Char := "controller A actions show <- get /x/".toList

/-- A keyword is a name as good as any. -/
theorem ofSource_colonText_keyword :
    ∃ ds ds', ofSource "controller A actions show <- get /x/<END:Int>/:y :default %" = .ok ds ∧
      ofSource "controller A actions show <- get /x/:END(Int)/:y :default %" = .ok ds' ∧
      ds'.unplaced = ds.unplaced := by
  have hbracket : String.ofList (beforeParam ++
      (bracketText "END".toList (some "Int".toList) ++ "/:y :default %".toList)) =
      "controller A actions show <- get /x/<END:Int>/:y :default %" := by decide +kernel
  have hcolon : String.ofList (beforeParam ++
      (colonText "END".toList (some "Int".toList) ++ "/:y :default %".toList)) =
      "controller A actions show <- get /x/:END(Int)/:y :default %" := by decide +kernel
  have hw : IsIdent "END".toList := Token.isIdent_iff.2 (by decide +kernel)
  have hkind : SpellsKind (some "Int".toList) .int := .int ⟨by decide, by decide +kernel⟩
  have hy : ∀ c ∈ "/:y :default %".toList.head?, c = '/' ∨ isBlank c = true := by
    intro c hc
    exact .inl (Option.some.inj hc).symm
  have hok : (ofSource (String.ofList (beforeParam ++ (bracketText "END".toList
      (some "Int".toList) ++ "/:y :default %".toList)))).toOption.isSome = true := by
    decide +kernel
  obtain ⟨ds, hds⟩ := Option.isSome_iff_exists.1 hok
  have hds := toOption_eq_some_iff.1 hds
  obtain ⟨ds', hds', hunplaced⟩ :=
    (ofSource_colonText hw hkind hy hds (by decide +kernel)).2 (by decide +kernel)
  exact ⟨ds, ds', hbracket ▸ hds, hcolon ▸ hds', hunplaced⟩

/-- Not every identifier can be put behind a colon. -/
theorem ofSource_colonText_default : ¬∀ (x w y : List Char) (kindText : Option (List Char))
    (kind : ParamKind) (ds : Declarations), IsIdent w → SpellsKind kindText kind →
    (∀ c ∈ y.head?, c = '/' ∨ isBlank c = true) →
    ofSource (String.ofList (x ++ (bracketText w kindText ++ y))) = .ok ds →
    HasBracketAt (String.ofList (x ++ (bracketText w kindText ++ y))) (byteLength x) →
    ∃ ds', ofSource (String.ofList (x ++ (colonText w kindText ++ y))) = .ok ds' ∧
      ds'.unplaced = ds.unplaced := by
  intro h
  have hbracket : (ofSource (String.ofList (beforeParam ++ (bracketText "default".toList none ++
      " end end".toList)))).toOption.map markCount = some 0 := by decide +kernel
  have hcolon : (ofSource (String.ofList (beforeParam ++ (colonText "default".toList none ++
      " end end".toList)))).toOption.map markCount = some 1 := by decide +kernel
  have hy : ∀ c ∈ " end end".toList.head?, c = '/' ∨ isBlank c = true := by
    intro c hc
    rw [← Option.some.inj hc]
    exact .inr rfl
  obtain ⟨ds, hds, hcount⟩ := Option.map_eq_some_iff.1 hbracket
  obtain ⟨ds', hds', hunplaced⟩ := h beforeParam "default".toList " end end".toList none .text ds
    (Token.isIdent_iff.2 (by decide +kernel)) .absent hy (toOption_eq_some_iff.1 hds)
    (by decide +kernel)
  rw [toOption_eq_some_iff.2 hds', Option.map_some, ← markCount_unplaced, hunplaced,
    markCount_unplaced, hcount] at hcolon
  cases hcolon

end Declarations
end Routes
