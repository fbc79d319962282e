import Routes.Proofs.Text.Split
import Routes.Request.Target
/-!
Targets without a scheme. The path is what stands in front of the query. A text that holds no marks
is a path by itself, and in front of a target it becomes part of the path.
-/
namespace Routes

namespace Request
variable {c : Char} {front cs : List Char} {url : String}

theorem textBefore_of_not_mem (h : c ∉ cs) : textBefore c cs = cs := by
  rw [textBefore, Text.cut?_eq_none h]

theorem textBefore_append (h : c ∉ front) (cs : List Char) :
    textBefore c (front ++ cs) = front ++ textBefore c cs := by
  rw [textBefore, Text.cut?_append h, textBefore]
  cases Text.cut? c cs <;> rfl

theorem head?_of_textBefore {d : Char} (h : (textBefore c cs).head? = some d) :
    cs.head? = some d := by
  unfold textBefore at h
  split at h
  · rename_i a b hcut
    obtain ⟨rfl, -⟩ := Text.cut?_eq_some hcut
    rw [List.head?_append, h]
    rfl
  · exact h

/-- Only a colon makes a target absolute. -/
theorem holdsScheme_eq_false (h : ':' ∉ cs) : holdsScheme cs = false := by
  induction cs with
  | nil => rfl
  | cons c cs ih =>
    rw [List.mem_cons, not_or] at h
    have hprefix : "://".toList.isPrefixOf (c :: cs) = false := by
      have hne : (':' == c) = false := by simpa using h.1
      show (':' == c && _) = false
      rw [hne, Bool.false_and]
    rw [holdsScheme, hprefix, ih h.2, Bool.or_false]

/-- What stands behind the first question mark. -/
def queryOf (cs : List Char) : Option (List Char) := (Text.cut? '?' cs).map Prod.snd

theorem queryOf_append (h : '?' ∉ front) (cs : List Char) : queryOf (front ++ cs) = queryOf cs := by
  rw [queryOf, Text.cut?_append h, Option.map_map]
  rfl

/-- A target of which no scheme is part. -/
def IsRelative (url : String) : Prop := isAbsolute (textBefore '#' url.toList) = false

instance : DecidablePred IsRelative := fun url =>
  inferInstanceAs (Decidable (isAbsolute (textBefore '#' url.toList) = false))

/-- The path of a target without a scheme. -/
def relativePath (url : String) : List Char := textBefore '?' (textBefore '#' url.toList)

theorem splitPath?_of_relative (h : isAbsolute cs = false) :
    splitPath? cs = some ⟨textBefore '?' cs, queryOf cs⟩ := by
  rw [splitPath?, h, textBefore, queryOf]
  cases Text.cut? '?' cs <;> rfl

theorem RequestTarget.ofText?_of_relative (h : IsRelative url) : ofText? url =
    if (relativePath url).all isPathChar then
      some ⟨relativePath url, queryOf (textBefore '#' url.toList)⟩
    else none := by
  rw [ofText?, splitPath?_of_relative h]
  rfl

/-- A text without marks of its own is the path of a target as it is. -/
theorem RequestTarget.ofText?_eq_path (hmarks : ∀ c ∈ ['#', '?', ':'], c ∉ url.toList)
    (hchars : ∀ c ∈ url.toList, isPathChar c = true) :
    RequestTarget.ofText? url = some ⟨url.toList, none⟩ := by
  have hquery : '?' ∉ url.toList := hmarks '?' (by decide)
  have hbefore : textBefore '?' url.toList = url.toList := textBefore_of_not_mem hquery
  have hfragment : textBefore '#' url.toList = url.toList :=
    textBefore_of_not_mem (hmarks '#' (by decide))
  have hrelative : IsRelative url := by
    rw [IsRelative, hfragment, isAbsolute, hbefore]
    exact holdsScheme_eq_false (hmarks ':' (by decide))
  have hpath : relativePath url = url.toList := by
    rw [relativePath, hfragment, hbefore]
  rw [ofText?_of_relative hrelative, hpath, if_pos (List.all_eq_true.2 hchars), hfragment, queryOf,
    Text.cut?_eq_none hquery]
  rfl

/-- A text without marks in front of a target goes in front of its path and changes nothing else. -/
theorem RequestTarget.ofText?_append {a b rest : String}
    (ha : IsRelative (a ++ rest)) (hb : IsRelative (b ++ rest))
    (hmarks : ∀ c ∈ ['#', '?'], c ∉ a.toList ∧ c ∉ b.toList)
    (hchars : ∀ c ∈ a.toList ++ b.toList, isPathChar c = true) :
    (ofText? (a ++ rest) = none ∧ ofText? (b ++ rest) = none) ∨
      ∃ query, ofText? (a ++ rest) = some ⟨a.toList ++ relativePath rest, query⟩ ∧
        ofText? (b ++ rest) = some ⟨b.toList ++ relativePath rest, query⟩ := by
  have hpath : ∀ s : String, (∀ c ∈ ['#', '?'], c ∉ s.toList) →
      relativePath (s ++ rest) = s.toList ++ relativePath rest ∧
        queryOf (textBefore '#' (s ++ rest).toList) = queryOf (textBefore '#' rest.toList) := by
    intro s hs
    have hhash := hs '#' (by decide)
    have hquestion := hs '?' (by decide)
    rw [relativePath, String.toList_append, textBefore_append hhash,
      textBefore_append hquestion, queryOf_append hquestion]
    exact ⟨rfl, rfl⟩
  obtain ⟨hpatha, hquerya⟩ := hpath a fun c hc => (hmarks c hc).1
  obtain ⟨hpathb, hqueryb⟩ := hpath b fun c hc => (hmarks c hc).2
  have halla : a.toList.all isPathChar = true :=
    List.all_eq_true.2 fun c hc => hchars c (List.mem_append_left _ hc)
  have hallb : b.toList.all isPathChar = true :=
    List.all_eq_true.2 fun c hc => hchars c (List.mem_append_right _ hc)
  rw [ofText?_of_relative ha, ofText?_of_relative hb, hpatha, hpathb, hquerya, hqueryb,
    List.all_append, List.all_append, halla, hallb]
  cases (relativePath rest).all isPathChar with
  | false => exact .inl ⟨rfl, rfl⟩
  | true => exact .inr ⟨_, rfl, rfl⟩

end Request
end Routes
