import Routes.Proofs.Request.Target
import Routes.Proofs.Text.Percent
import Routes.Proofs.Token.Scan
/-!
Plain paths. Of a plain path nothing is coded and nothing is resolved, so an absolute URL leaves it
as it is.
-/
namespace Routes.Request
variable {c : Char} {cs s : List Char}

/-- Letters and digits, the percent sign, and marks that no path has to write in percent coding. -/
def isPlainChar (c : Char) : Bool := c.isAlphanum || "._~!$&'()*+,;=:@%/-".toList.contains c

/-- A segment with each dot in percent coding read as a dot. -/
def undot : List Char → List Char
  | '%' :: '2' :: 'e' :: cs => '.' :: undot cs
  | '%' :: '2' :: 'E' :: cs => '.' :: undot cs
  | c :: cs => c :: undot cs
  | [] => []

/-- A path of plain characters behind a slash, without a scheme and without segments of dots. -/
structure IsPlainPath (cs : List Char) : Prop where
  head : cs.head? = some '/'
  chars : ∀ c ∈ cs, isPlainChar c = true
  scheme : ¬"://".toList <:+: cs
  dots : ∀ s ∈ Text.pieces '/' cs, undot s ≠ ['.'] ∧ undot s ≠ ['.', '.']

/-- What holds of the plain characters can be checked one by one. -/
theorem plain_forall {p : Char → Bool}
    (h : ∀ n < 128, isPlainChar (Char.ofNat n) = true → p (Char.ofNat n) = true)
    (hc : isPlainChar c = true) : p c = true := by
  have hlt : c.toNat < 128 := by
    rcases Bool.or_eq_true_iff.1 hc with hletter | hmark
    · apply Token.toNat_lt_of_isFragmentChar
      simp [Token.isFragmentChar, hletter]
    · have hall : "._~!$&'()*+,;=:@%/-".toList.all (·.toNat < 128) = true := by decide
      exact of_decide_eq_true (List.all_eq_true.1 hall c (by simpa using hmark))
  simpa using h c.toNat hlt (by simpa using hc)

theorem isPathChar_of_plain (hc : isPlainChar c = true) : isPathChar c = true :=
  plain_forall (by set_option maxRecDepth 4000 in decide) hc

theorem keeps_of_plain (hc : isPlainChar c = true) : Path.keeps c = true :=
  plain_forall (by set_option maxRecDepth 4000 in decide) hc

theorem ne_of_plain {d : Char} (hc : isPlainChar c = true) (hd : isPlainChar d = false) :
    c ≠ d := by
  rintro rfl
  cases hc.symm.trans hd

theorem separates_iff (hc : isPlainChar c = true) :
    Absolute.SchemeKind.web.separates c = true ↔ c = '/' := by
  have hback : c ≠ '\\' := ne_of_plain hc (by decide)
  simp [Absolute.SchemeKind.separates, hback]

theorem isInfix_of_holdsScheme (h : holdsScheme cs = true) : "://".toList <:+: cs := by
  induction cs with
  | nil => cases h
  | cons c cs ih =>
    rcases Bool.or_eq_true_iff.1 h with hprefix | hrest
    · exact (List.isPrefixOf_iff_prefix.1 hprefix).isInfix
    · exact List.infix_cons (ih hrest)

namespace Path

theorem undot_of_dropDot? {r : List Char} (h : dropDot? s = some r) : undot s = '.' :: undot r := by
  unfold dropDot? at h
  split at h
  · cases h; simp [undot]
  · cases h; simp [undot]
  · cases h; simp [undot]
  · cases h

theorem undot_of_isSingleDot (h : isSingleDot s = true) : undot s = ['.'] := by
  have hdrop : dropDot? s = some [] := beq_iff_eq.1 h
  rw [undot_of_dropDot? hdrop]
  rfl

theorem undot_of_isDoubleDot (h : isDoubleDot s = true) : undot s = ['.', '.'] := by
  obtain ⟨r, hfirst, hsecond⟩ := Option.bind_eq_some_iff.1 (beq_iff_eq.1 h)
  rw [undot_of_dropDot? hfirst, undot_of_dropDot? hsecond]
  rfl

/-- Segments of plain characters, none of which is dots, stay as they are. -/
theorem resolve_of_plain {segments : List (List Char)} (done : List (List Char))
    (hchars : ∀ s ∈ segments, ∀ c ∈ s, isPlainChar c = true)
    (hdots : ∀ s ∈ segments, undot s ≠ ['.'] ∧ undot s ≠ ['.', '.']) :
    resolve done segments = done.reverse ++ segments := by
  induction segments generalizing done with
  | nil => rw [resolve, List.append_nil]
  | cons s rest ih =>
    rw [List.forall_mem_cons] at hchars hdots
    have hdouble : isDoubleDot s = false :=
      Bool.eq_false_iff.2 fun h => hdots.1.2 (undot_of_isDoubleDot h)
    have hsingle : isSingleDot s = false :=
      Bool.eq_false_iff.2 fun h => hdots.1.1 (undot_of_isSingleDot h)
    have hcode : Text.Percent.encode keeps s = s :=
      Text.Percent.encode_of_keep fun c hc => keeps_of_plain (hchars.1 c hc)
    rw [resolve]
    simp only [hdouble, hsingle, hcode, Bool.false_eq_true, if_false]
    rw [ih _ hchars.2 hdots.2, List.reverse_cons, List.append_assoc, List.singleton_append]

theorem render_pieces (cs : List Char) : render (Text.pieces '/' cs) = '/' :: cs := by
  have hrender : ∀ p ps, render (p :: ps) = '/' :: Text.join '/' (p :: ps) := by
    intro p ps
    induction ps generalizing p with
    | nil => simp [render, Text.join]
    | cons q qs ih =>
      rw [Text.join_cons_cons, ← ih q]
      rfl
  obtain ⟨p, ps, hps⟩ := List.exists_cons_of_ne_nil (Text.pieces_ne_nil '/' cs)
  rw [hps, hrender, ← hps, Text.join_pieces]

theorem split_of_plain (hchars : ∀ c ∈ cs, isPlainChar c = true) :
    split Absolute.SchemeKind.web.separates cs = Text.pieces '/' cs := by
  have hid : (cs.map fun c => if Absolute.SchemeKind.web.separates c then '/' else c) =
      cs.map id := by
    apply List.map_congr_left
    intro c hc
    split
    · rename_i hsep
      exact ((separates_iff (hchars c hc)).1 hsep).symm
    · rfl
  rw [split, hid, List.map_id]

end Path

theorem IsPlainPath.segmentsPath_eq (h : IsPlainPath cs) :
    Absolute.segmentsPath .web cs = cs := by
  obtain ⟨rest, rfl⟩ := List.head?_eq_some_iff.1 h.head
  have hchars : ∀ c ∈ rest, isPlainChar c = true :=
    fun c hc => h.chars c (List.mem_cons_of_mem _ hc)
  have hmem : ∀ s ∈ Text.pieces '/' rest, s ∈ Text.pieces '/' ('/' :: rest) := by
    intro s hs
    rw [Text.pieces, if_pos rfl]
    exact List.mem_cons_of_mem _ hs
  have hresolve : Path.resolve [] (Text.pieces '/' rest) = Text.pieces '/' rest :=
    Path.resolve_of_plain [] (fun s hs c hc => hchars c (Text.mem_of_mem_pieces hs hc))
      fun s hs => h.dots s (hmem s hs)
  show Path.render (Path.resolve [] (Path.split Absolute.SchemeKind.web.separates rest)) = _
  rw [Path.split_of_plain hchars, hresolve, Path.render_pieces]

end Routes.Request
