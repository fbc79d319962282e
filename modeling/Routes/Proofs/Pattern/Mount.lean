import Routes.Proofs.Pattern.Link
import Routes.Proofs.Text.Slash
/-!
Patterns under a base URL. The pieces of the base URL stand in front of a path, behind one slash and
in front of another. Main statement: what a pattern takes behind them is what it takes without a
base URL, and it takes no path that does not begin with them.
-/
namespace Routes

theorem IsPiece.of_isRun {w : List Char} (h : Token.IsRun w) : IsPiece w := by
  refine ⟨h.1, fun hslash => ?_⟩
  have hfragment := h.2 '/' hslash
  cases hfragment

namespace PathPart
variable {us : List (List Char)} {ps : List PathPart} {ts vs : List (List Char)}

theorem reads_texts_append_iff : Reads (us.map .text ++ ps) ts vs ↔
    ∃ ts', ts = us ++ ts' ∧ Reads ps ts' vs := by
  induction us generalizing ts with
  | nil => simp
  | cons u us ih =>
    constructor
    · intro h
      obtain ⟨_, ts', _, _, rfl, rfl, ⟨rfl, rfl⟩, hts⟩ := reads_cons_iff.1 h
      obtain ⟨ts'', rfl, hrest⟩ := ih.1 hts
      exact ⟨ts'', rfl, hrest⟩
    · intro h
      obtain ⟨ts', rfl, hts⟩ := h
      exact .text (ih.2 ⟨ts', rfl, hts⟩)

end PathPart

namespace Pattern
variable {p : Pattern} {base : String} {path rest : List Char} {vs : List (List Char)}

/-- The path of a base URL without slashes at its ends. -/
def mountPath (base : String) : List Char := Text.join '/' (basePieces base)

theorem isPiece_of_mem_basePieces {cs : List Char} (h : cs ∈ basePieces base) : IsPiece cs := by
  obtain ⟨hmem, hne⟩ := List.mem_filter.1 h
  exact ⟨by simpa using hne, Text.sep_not_mem_of_mem_pieces hmem⟩

theorem isPiece_of_reads {ts : List (List Char)}
    (hp : ∀ text, .literal text ∈ p → Token.IsRun text.toList)
    (h : PathPart.Reads (p.map Segment.pathPart) ts vs) : ∀ t ∈ ts, IsPiece t := by
  induction p generalizing ts vs with
  | nil =>
    obtain ⟨rfl, -⟩ := PathPart.reads_nil_iff.1 h
    simp
  | cons segment p ih =>
    obtain ⟨t, ts', us, vs', rfl, rfl, ht, hts⟩ := PathPart.reads_cons_iff.1 h
    have hrest := ih (fun text htext => hp text (List.mem_cons_of_mem segment htext)) hts
    refine List.forall_mem_cons.2 ⟨?_, hrest⟩
    cases segment with
    | literal text =>
      obtain ⟨rfl, -⟩ := ht
      exact .of_isRun (hp text List.mem_cons_self)
    | capture kind => exact ⟨ParamKind.ne_nil ht.1, ParamKind.slash_not_mem ht.1⟩

theorem matches_base_iff : p.Matches base path vs ↔ ∃ l t ts, (l = [] ∨ l = ['/']) ∧
    (t = [] ∨ t = ['/']) ∧ PathPart.Reads (p.map Segment.pathPart) ts vs ∧
      path = l ++ Text.join '/' (basePieces base ++ ts) ++ t := by
  simp only [Matches, parts, PathPart.reads_texts_append_iff]
  constructor
  · rintro ⟨l, t, _, hl, ht, ⟨ts, rfl, hts⟩, rfl⟩
    exact ⟨l, t, ts, hl, ht, hts, rfl⟩
  · rintro ⟨l, t, ts, hl, ht, hts, rfl⟩
    exact ⟨l, t, _, hl, ht, ⟨ts, rfl, hts⟩, rfl⟩

/-- Without a base URL, the texts of a path behind its slash are those of the captures and literals,
or there are none. -/
theorem matches_root_iff (hp : ∀ text, .literal text ∈ p → Token.IsRun text.toList)
    (hrest : rest.head? ≠ some '/') : p.Matches "" ('/' :: rest) vs ↔
      ∃ ts, PathPart.Reads (p.map Segment.pathPart) ts vs ∧ ((ts = [] ∧ rest = []) ∨
        ts ≠ [] ∧ ∃ t, (t = [] ∨ t = ['/']) ∧ rest = Text.join '/' ts ++ t) := by
  have hbase : basePieces "" = [] := by decide
  have hjoin : Text.join '/' [] = [] := rfl
  rw [matches_base_iff]
  constructor
  · rintro ⟨l, t, ts, hl, ht, hts, hpath⟩
    refine ⟨ts, hts, ?_⟩
    rw [hbase, List.nil_append] at hpath
    cases ts with
    | nil =>
      rw [hjoin, List.append_nil] at hpath
      rcases hl with rfl | rfl <;> rcases ht with rfl | rfl <;> cases hpath
      · exact .inl ⟨rfl, rfl⟩
      · exact .inl ⟨rfl, rfl⟩
      · exact absurd rfl hrest
    | cons u us =>
      obtain ⟨c, cs, htext, hc⟩ := (isPiece_of_reads hp hts u List.mem_cons_self).head_join us
      rcases hl with rfl | rfl
      · rw [htext, List.nil_append, List.cons_append] at hpath
        exact absurd (List.cons.inj hpath).1.symm hc
      · exact .inr ⟨List.cons_ne_nil u us, t, ht, (List.cons.inj hpath).2⟩
  · rintro ⟨ts, hts, ⟨rfl, rfl⟩ | ⟨hne, t, ht, rfl⟩⟩
    · exact ⟨['/'], [], [], .inr rfl, .inl rfl, hts, rfl⟩
    · exact ⟨['/'], t, ts, .inr rfl, ht, hts, rfl⟩

/-- Behind a base URL, the same texts are read. -/
theorem matches_mounted_iff (hp : ∀ text, .literal text ∈ p → Token.IsRun text.toList)
    (hbase : basePieces base ≠ []) (hrest : rest.head? ≠ some '/') :
    p.Matches base ('/' :: (mountPath base ++ '/' :: rest)) vs ↔ p.Matches "" ('/' :: rest) vs := by
  rw [matches_root_iff hp hrest, matches_base_iff]
  constructor
  · rintro ⟨l, t, ts, hl, ht, hts, hpath⟩
    refine ⟨ts, hts, ?_⟩
    obtain ⟨u, us, hpieces⟩ := List.exists_cons_of_ne_nil hbase
    have hu : IsPiece u := isPiece_of_mem_basePieces (hpieces ▸ List.mem_cons_self)
    have hfront : l = ['/'] := by
      rcases hl with rfl | rfl
      · obtain ⟨c, cs, htext, hc⟩ := hu.head_join (us ++ ts)
        rw [hpieces, List.cons_append, htext, List.nil_append, List.cons_append] at hpath
        exact absurd (List.cons.inj hpath).1.symm hc
      · rfl
    subst hfront
    have hbehind : mountPath base ++ '/' :: rest = Text.join '/' (basePieces base ++ ts) ++ t :=
      (List.cons.inj hpath).2
    cases ts with
    | nil =>
      rw [List.append_nil] at hbehind
      have htail : '/' :: rest = t := List.append_cancel_left hbehind
      rcases ht with rfl | rfl <;> cases htail
      exact .inl ⟨rfl, rfl⟩
    | cons u us =>
      rw [Text.join_append hbase (List.cons_ne_nil u us), List.append_assoc] at hbehind
      have htail := List.append_cancel_left hbehind
      exact .inr ⟨List.cons_ne_nil u us, t, ht, (List.cons.inj htail).2⟩
  · rintro ⟨ts, hts, ⟨rfl, rfl⟩ | ⟨hne, t, ht, rfl⟩⟩
    · refine ⟨['/'], ['/'], [], .inr rfl, .inr rfl, hts, ?_⟩
      rw [List.append_nil]
      rfl
    · refine ⟨['/'], t, ts, .inr rfl, ht, hts, ?_⟩
      rw [Text.join_append hbase hne]
      simp [mountPath]

/-- A path that is matched under a base URL begins with the pieces of the base URL, perhaps behind a
slash, and goes on with a slash if it goes on. -/
theorem front_of_matches (hbase : basePieces base ≠ []) (h : p.Matches base path vs) :
    ∃ l rest, (l = [] ∨ l = ['/']) ∧ path = l ++ mountPath base ++ rest ∧
      (rest = [] ∨ rest.head? = some '/') := by
  obtain ⟨l, t, ts, hl, ht, -, rfl⟩ := matches_base_iff.1 h
  cases ts with
  | nil =>
    refine ⟨l, t, hl, by rw [List.append_nil]; rfl, ?_⟩
    rcases ht with rfl | rfl
    · exact .inl rfl
    · exact .inr rfl
  | cons u us =>
    refine ⟨l, '/' :: (Text.join '/' (u :: us) ++ t), hl, ?_, .inr rfl⟩
    rw [Text.join_append hbase (List.cons_ne_nil u us)]
    simp [mountPath]

end Pattern
end Routes
