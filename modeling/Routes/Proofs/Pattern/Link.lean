import Routes.Proofs.Pattern.Match
import Routes.Proofs.Request.Target
import Routes.Proofs.Text.Percent
import Routes.Proofs.Token.Scan
/-!
Links: the paths that lead to a pattern. A link is written from one value for each capture, and the
values are percent coded so that none of them can end its part of the path. Main statements: the
pattern matches its links, and a link is read as a path without a query.
-/
namespace Routes
open Token (isFragmentChar)
variable {p : Pattern} {base v : String} {vs : List String} {c : Char}

/-- The values that a capture can be given. -/
def ParamKind.Allows : ParamKind → String → Prop
  | .text, v => v ≠ ""
  | .int, v => v ≠ "" ∧ ∀ c ∈ v.toList, c.isDigit = true

namespace Pattern

/-- One value for each capture, in order. -/
inductive Chooses : Pattern → List String → Prop where
  | nil : Chooses [] []
  | literal {text p vs} : Chooses p vs → Chooses (.literal text :: p) vs
  | capture {kind p v vs} : kind.Allows v → Chooses p vs → Chooses (.capture kind :: p) (v :: vs)

/-- A value as it is written in a link. -/
def code (v : String) : List Char := Text.Percent.encode isFragmentChar v.toList

/-- The texts of the segments, with a value in the place of each capture. -/
def fill : Pattern → List String → List (List Char)
  | .literal text :: p, vs => text.toList :: fill p vs
  | .capture _ :: p, v :: vs => code v :: fill p vs
  | _, _ => []

/-- The path of a pattern under a base URL with values for its captures. -/
def link (p : Pattern) (base : String) (vs : List String) : String :=
  String.ofList ('/' :: Text.join '/' (basePieces base ++ p.fill vs))

theorem isFragmentChar_of_isDigit (h : c.isDigit = true) : isFragmentChar c = true := by
  simp [isFragmentChar, Char.isAlphanum, h]

theorem isFragmentChar_hexDigit {n : Nat} (h : n < 16) :
    isFragmentChar (Text.Percent.hexDigit n) = true := by
  have hall : ∀ n < 16, isFragmentChar (Text.Percent.hexDigit n) = true := by decide
  exact hall n h

theorem mem_code (h : c ∈ code v) : isFragmentChar c = true ∨ c = '%' := by
  rcases Text.Percent.mem_encode h with hkeep | hpercent | ⟨n, hn, rfl⟩
  · exact .inl hkeep
  · exact .inr hpercent
  · exact .inl (isFragmentChar_hexDigit hn)

theorem code_ne_nil (h : v ≠ "") : code v ≠ [] := by
  have hne : v.toList ≠ [] := by simpa using h
  exact Text.Percent.encode_ne_nil (by decide) hne

theorem slash_not_mem_code (v : String) : '/' ∉ code v := by
  intro h
  rcases mem_code h with hfragment | hpercent
  · exact absurd hfragment (by decide)
  · exact absurd hpercent (by decide)

/-- No value is lost in its writing. -/
theorem decodeText_code (vs : List String) :
    (vs.map code).map (fun v => String.ofList (Text.Percent.decodeText v)) = vs := by
  have hvalue : ∀ v : String, String.ofList (Text.Percent.decodeText (code v)) = v := by
    intro v
    rw [code, Text.Percent.decodeText_encode (by decide), String.ofList_toList]
  rw [List.map_map]
  exact (List.map_congr_left fun v _ => hvalue v).trans (List.map_id vs)

/-- What is written for a value is what a capture takes. -/
theorem accepts_code {kind : ParamKind} (h : kind.Allows v) : kind.accepts (code v) = true := by
  cases kind with
  | text =>
    have hslash := slash_not_mem_code v
    have hne : code v ≠ [] := code_ne_nil h
    simp [ParamKind.accepts, hne, hslash]
  | int =>
    obtain ⟨hne, hdigits⟩ := h
    have hcode : code v = v.toList :=
      Text.Percent.encode_of_keep fun c hc => isFragmentChar_of_isDigit (hdigits c hc)
    simp only [ParamKind.accepts, hcode, Bool.and_eq_true, List.all_eq_true]
    exact ⟨by simpa using hne, hdigits⟩

theorem reads_fill (h : p.Chooses vs) :
    PathPart.Reads (p.map Segment.pathPart) (p.fill vs) (vs.map code) := by
  induction h with
  | nil => exact .nil
  | literal _ ih => exact .text ih
  | capture hv _ ih => exact .capture (accepts_code hv) ih

theorem matches_link (h : p.Chooses vs) (base : String) :
    p.Matches base (p.link base vs).toList (vs.map code) := by
  have hreads : PathPart.Reads (p.parts base) (basePieces base ++ p.fill vs) (vs.map code) :=
    (reads_fill h).texts_append (basePieces base)
  refine ⟨['/'], [], basePieces base ++ p.fill vs, .inr rfl, .inl rfl, hreads, ?_⟩
  rw [link, String.toList_ofList, List.append_nil]
  rfl

/-- The characters that a link is made of. -/
def IsLinkChar (c : Char) : Prop := isFragmentChar c = true ∨ c = '/' ∨ c = '%'

instance : DecidablePred IsLinkChar := fun c =>
  inferInstanceAs (Decidable (isFragmentChar c = true ∨ c = '/' ∨ c = '%'))

theorem mem_fill {text : List Char} (hp : ∀ text, .literal text ∈ p → Token.IsRun text.toList)
    (htext : text ∈ p.fill vs) (h : c ∈ text) : IsLinkChar c := by
  induction p generalizing vs with
  | nil => cases htext
  | cons segment p ih =>
    have hrest : ∀ text, .literal text ∈ p → Token.IsRun text.toList :=
      fun text htext => hp text (List.mem_cons_of_mem segment htext)
    cases segment with
    | literal word =>
      rcases List.mem_cons.1 htext with rfl | htext
      · exact .inl ((hp word List.mem_cons_self).2 c h)
      · exact ih hrest htext
    | capture kind =>
      cases vs with
      | nil => cases htext
      | cons v vs =>
        rcases List.mem_cons.1 htext with rfl | htext
        · exact (mem_code h).imp id .inr
        · exact ih hrest htext

theorem mem_link (hbase : ∀ c ∈ base.toList, isFragmentChar c = true ∨ c = '/')
    (hp : ∀ text, .literal text ∈ p → Token.IsRun text.toList)
    (h : c ∈ (p.link base vs).toList) : IsLinkChar c := by
  rw [link, String.toList_ofList] at h
  rcases List.mem_cons.1 h with hslash | hjoin
  · exact .inr (.inl hslash)
  · rcases Text.mem_join hjoin with hslash | ⟨text, htext, hc⟩
    · exact .inr (.inl hslash)
    · rcases List.mem_append.1 htext with hpiece | hfill
      · have hmem := Text.mem_of_mem_pieces (List.mem_filter.1 hpiece).1 hc
        exact (hbase c hmem).imp id .inl
      · exact mem_fill hp hfill hc

theorem IsLinkChar.toNat_lt (h : IsLinkChar c) : c.toNat < 128 := by
  rcases h with hfragment | rfl | rfl
  · exact Token.toNat_lt_of_isFragmentChar hfragment
  · decide
  · decide

theorem IsLinkChar.not_mark (h : IsLinkChar c) :
    c ∉ ['#', '?', ':'] ∧ Request.isPathChar c = true := by
  have hsmall : ∀ n < 128, IsLinkChar (Char.ofNat n) →
      Char.ofNat n ∉ ['#', '?', ':'] ∧ Request.isPathChar (Char.ofNat n) = true := by
    decide
  simpa using hsmall c.toNat h.toNat_lt (by simpa using h)

theorem ofText?_link (hbase : ∀ c ∈ base.toList, isFragmentChar c = true ∨ c = '/')
    (hp : ∀ text, .literal text ∈ p → Token.IsRun text.toList) :
    Request.RequestTarget.ofText? (p.link base vs) = some ⟨(p.link base vs).toList, none⟩ := by
  have hlink : ∀ c ∈ (p.link base vs).toList, IsLinkChar c := fun c hc => mem_link hbase hp hc
  refine Request.RequestTarget.ofText?_eq_path (fun c hmark hc => ?_) fun c hc => ?_
  · exact (hlink c hc).not_mark.1 hmark
  · exact (hlink c hc).not_mark.2

end Pattern
end Routes
