import Routes.Proofs.Request.Path
import Routes.Proofs.Request.Query
/-!
Absolute URLs and the targets they stand for. Main statements: what is left of a URL with a plain
path is the path and its query in percent coding, and the same path without a host is left as it is.
-/
namespace Routes.Request
variable {c : Char} {cs host path : List Char}

/-- A name of lower-case letters. -/
structure IsHost (cs : List Char) : Prop where
  nonempty : cs ≠ []
  lower : ∀ c ∈ cs, c.isLower = true

/-- Printable ASCII characters, but for spaces and the mark of fragments. -/
def isQueryChar (c : Char) : Bool := 0x20 < c.toNat && c.toNat < 0x7F && c != '#'

def IsPlainQuery (cs : List Char) : Prop := ∀ c ∈ cs, isQueryChar c = true

/-- A text behind its mark, or nothing. -/
def marked (mark : Char) : Option String → String
  | some text => String.ofList (mark :: text.toList)
  | none => ""

theorem cut?_marked {mark : Char} (h : mark ∉ cs) (text : Option String) :
    Text.cut? mark (cs ++ (marked mark text).toList) = text.map fun t => (cs, t.toList) := by
  rw [Text.cut?_append h]
  cases text with
  | none => rfl
  | some t => simp [marked, Text.cut?]

theorem textBefore_marked {mark : Char} (h : mark ∉ cs) (text : Option String) :
    textBefore mark (cs ++ (marked mark text).toList) = cs := by
  rw [textBefore, cut?_marked h]
  cases text with
  | none => exact List.append_nil cs
  | some t => rfl

theorem isQueryChar_of_mem_marked {query : Option String}
    (h : ∀ q ∈ query, IsPlainQuery q.toList) (hc : c ∈ (marked '?' query).toList) :
    isQueryChar c = true := by
  cases query with
  | none => cases hc
  | some q =>
    rw [marked, String.toList_ofList, List.mem_cons] at hc
    rcases hc with rfl | hmem
    · decide
    · exact h q rfl c hmem

theorem hash_not_mem_marked {query : Option String} (h : ∀ q ∈ query, IsPlainQuery q.toList) :
    '#' ∉ (marked '?' query).toList :=
  fun hmem => absurd (isQueryChar_of_mem_marked h hmem) (by decide)

theorem isQueryChar_of_plain (hc : isPlainChar c = true) : isQueryChar c = true :=
  plain_forall (by set_option maxRecDepth 4000 in decide) hc

theorem printable_of_isQueryChar (h : isQueryChar c = true) : 0x20 < c.toNat := by
  simp only [isQueryChar, Bool.and_eq_true, decide_eq_true_eq] at h
  exact h.1.1

theorem isPlainChar_of_isLower (h : c.isLower = true) : isPlainChar c = true := by
  have halpha : c.isAlpha = true := Bool.or_eq_true_iff.2 (.inr h)
  have halphanum : c.isAlphanum = true := Bool.or_eq_true_iff.2 (.inl halpha)
  exact Bool.or_eq_true_iff.2 (.inl halphanum)

/-- What holds of the lower-case letters can be checked one by one. -/
theorem lower_forall {p : Char → Bool}
    (h : ∀ n < 128, (Char.ofNat n).isLower = true → p (Char.ofNat n) = true)
    (hc : c.isLower = true) : p c = true := by
  have hplain := plain_forall (p := fun d => !d.isLower || p d) (c := c) (by
    intro n hn _
    cases hlow : (Char.ofNat n).isLower with
    | false => rfl
    | true => exact h n hn hlow) (isPlainChar_of_isLower hc)
  rw [hc] at hplain
  exact hplain

theorem ne_of_isLower {d : Char} (hc : c.isLower = true) (hd : d.isLower = false) : c ≠ d := by
  rintro rfl
  cases hc.symm.trans hd

namespace IsHost

theorem not_mem (h : IsHost cs) {d : Char} (hd : d.isLower = false) : d ∉ cs :=
  fun hmem => ne_of_isLower (h.lower d hmem) hd rfl

theorem decode_eq (h : IsHost cs) : Text.Percent.decode cs = Text.Utf8.encode cs := by
  have hpercent : '%' ∉ cs := h.not_mem (by decide)
  clear h
  induction cs with
  | nil => rfl
  | cons c cs ih =>
    rw [List.mem_cons, not_or] at hpercent
    rw [Text.Percent.decode_cons (Ne.symm hpercent.1), ih hpercent.2]
    rfl

theorem mapChar_eq (h : IsHost cs) : cs.mapM Domain.mapChar = some (cs.map ([·])) := by
  have hchar : ∀ c ∈ cs, Domain.mapChar c = some [c] := fun c hc =>
    beq_iff_eq.1 (lower_forall (p := fun c => Domain.mapChar c == some [c]) (by decide)
      (h.lower c hc))
  clear h
  induction cs with
  | nil => rfl
  | cons c cs ih =>
    rw [List.forall_mem_cons] at hchar
    rw [List.mapM_cons, hchar.1, ih hchar.2]
    rfl

theorem joinersFollow_of_lower (h : ∀ c ∈ cs, c.isLower = true) :
    Domain.joinersFollow cs = true := by
  induction cs with
  | nil => rfl
  | cons a cs ih =>
    rw [List.forall_mem_cons] at h
    cases cs with
    | nil => rfl
    | cons b cs =>
      have hjoiner : (!(b.toNat == 0x200C || b.toNat == 0x200D)) = true :=
        lower_forall (p := fun c => !(c.toNat == 0x200C || c.toNat == 0x200D)) (by decide)
          (h.2 b List.mem_cons_self)
      rw [Bool.not_eq_true'] at hjoiner
      rw [Domain.joinersFollow, hjoiner, ih h.2]
      rfl

theorem isLabel (h : IsHost cs) : Domain.isLabel cs = true := by
  have hafter : Text.after? "xn--".toList cs = none := by
    apply Option.eq_none_iff_forall_ne_some.2
    intro r hr
    have hdash : '-' ∈ cs := by
      rw [Text.eq_append_of_after? hr]
      exact List.mem_append_left r (by decide)
    exact h.not_mem (by decide) hdash
  have hstart : Domain.startsWell cs = true := by
    obtain ⟨c, rest, rfl⟩ := List.exists_cons_of_ne_nil h.nonempty
    exact lower_forall
      (p := fun c => !Domain.marks.holds c.toNat && c.toNat != 0x200C && c.toNat != 0x200D)
      (by decide) (h.lower c List.mem_cons_self)
  rw [Domain.isLabel, hafter]
  simp only [hstart, joinersFollow_of_lower h.lower, Bool.and_self]

theorem ofHost? (h : IsHost cs) : Domain.ofHost? cs = some cs := by
  have hflat : (cs.map ([·])).flatten = cs := by
    rw [← List.flatMap_def]
    exact List.flatMap_singleton' cs
  have hpieces : Text.pieces '.' cs = [cs] := Text.pieces_of_not_mem (h.not_mem (by decide))
  rw [Domain.ofHost?, h.decode_eq, Text.Utf8.decode?_encode]
  simp only [h.mapChar_eq, hflat, hpieces, List.all_cons, List.all_nil, h.isLabel,
    List.isEmpty_eq_false_iff.2 h.nonempty]
  rfl

/-- No number begins with a letter. -/
theorem number?_of_lower (hc : c.isLower = true) (cs : List Char) :
    Address.number? (c :: cs) = none := by
  have hzero : c ≠ '0' := ne_of_isLower hc (by decide)
  have hten : (Text.Percent.hexValue? c).all (10 ≤ ·) = true :=
    lower_forall (p := fun c => (Text.Percent.hexValue? c).all (10 ≤ ·)) (by decide) hc
  have hdigits : Address.digits? 10 (c :: cs) = none := by
    rw [Address.digits?, List.foldlM_cons]
    cases hhex : Text.Percent.hexValue? c with
    | none => rfl
    | some d =>
      rw [hhex] at hten
      simp only [if_neg (Nat.not_lt.2 (of_decide_eq_true hten))]
      rfl
  unfold Address.number?
  split <;> simp_all

theorem endsInNumber (h : IsHost cs) : Address.endsInNumber cs = false := by
  have hpieces : Text.pieces '.' cs = [cs] := Text.pieces_of_not_mem (h.not_mem (by decide))
  obtain ⟨c, rest, rfl⟩ := List.exists_cons_of_ne_nil h.nonempty
  have hlower := h.lower c List.mem_cons_self
  have hdigit : (!c.isDigit) = true :=
    lower_forall (p := fun c => !c.isDigit) (by decide) hlower
  rw [Bool.not_eq_true'] at hdigit
  have hlabels : Address.labels (c :: rest) = [c :: rest] := by
    rw [Address.labels, hpieces]
    rfl
  rw [Address.endsInNumber, hlabels]
  simp only [List.getLast?_singleton, List.all_cons, hdigit, number?_of_lower hlower rest,
    Bool.false_and, Bool.and_false, Option.isSome_none, Bool.or_self]

theorem cutPort_eq (h : IsHost cs) : Absolute.cutPort false cs = (cs, []) := by
  have hchars : ∀ c ∈ cs, c ≠ ':' ∧ c ≠ '[' ∧ c ≠ ']' := fun c hc =>
    ⟨ne_of_isLower (h.lower c hc) (by decide), ne_of_isLower (h.lower c hc) (by decide),
      ne_of_isLower (h.lower c hc) (by decide)⟩
  clear h
  induction cs with
  | nil => rfl
  | cons c cs ih =>
    rw [List.forall_mem_cons] at hchars
    obtain ⟨⟨hcolon, hopen, hclose⟩, hrest⟩ := hchars
    rw [Absolute.cutPort, if_neg fun h => hcolon h.1, if_neg hopen, if_neg hclose]
    simp only [ih hrest]

theorem isDomainOrAddress (h : IsHost cs) : Absolute.isDomainOrAddress cs = true := by
  have hbracketed : Absolute.bracketed? cs = none := by
    unfold Absolute.bracketed?
    split
    · exact absurd List.mem_cons_self (h.not_mem (by decide))
    · rfl
  rw [Absolute.isDomainOrAddress, hbracketed, h.ofHost?]
  simp only [h.endsInNumber, Bool.not_false, Bool.true_or]

theorem isWebAuthority (h : IsHost cs) : Absolute.isWebAuthority cs = true := by
  have huser : Absolute.cutUser cs = (none, cs) := by
    have hat : '@' ∉ cs.reverse := fun hmem => h.not_mem (by decide) (List.mem_reverse.1 hmem)
    rw [Absolute.cutUser, Text.cut?_eq_none hat]
  have hempty : cs.isEmpty = false := List.isEmpty_eq_false_iff.2 h.nonempty
  rw [Absolute.isWebAuthority, huser]
  simp only [h.cutPort_eq, h.isDomainOrAddress, hempty]
  rfl

end IsHost

namespace Absolute

theorem webPath?_eq (hhost : IsHost host) (hpath : IsPlainPath path) :
    webPath? ('/' :: '/' :: (host ++ path)) = some path := by
  have hsep : ∀ c ∈ host, SchemeKind.web.separates c = false := by
    intro c hc
    have hlower := hhost.lower c hc
    rw [Bool.eq_false_iff]
    intro h
    exact ne_of_isLower hlower (by decide) ((separates_iff (isPlainChar_of_isLower hlower)).1 h)
  obtain ⟨rest, hrest⟩ := List.head?_eq_some_iff.1 hpath.head
  have hslashes : ('/' :: '/' :: (host ++ path)).dropWhile SchemeKind.web.separates =
      host ++ path := by
    obtain ⟨c, cs, hc⟩ := List.exists_cons_of_ne_nil hhost.nonempty
    have hfirst := hsep c (hc ▸ List.mem_cons_self)
    rw [List.dropWhile_cons_of_pos rfl, List.dropWhile_cons_of_pos rfl, hc, List.cons_append,
      List.dropWhile_cons_of_neg (by rw [hfirst]; exact Bool.false_ne_true)]
  have htake : (host ++ path).takeWhile (!SchemeKind.web.separates ·) = host := by
    rw [List.takeWhile_append_of_pos fun c hc => by rw [hsep c hc]; rfl, hrest]
    exact List.append_nil host
  have hdrop : (host ++ path).dropWhile (!SchemeKind.web.separates ·) = path := by
    rw [List.dropWhile_append_of_pos fun c hc => by rw [hsep c hc]; rfl, hrest]
    rfl
  rw [webPath?, hslashes]
  simp only [htake, hdrop, hhost.isWebAuthority, hpath.segmentsPath_eq, if_true]

/-- Nothing is dropped from a text that holds neither controls nor spaces. -/
theorem clean_eq (h : ∀ c ∈ cs, 0x20 < c.toNat) : clean cs = cs := by
  have hends : ∀ ds : List Char, (∀ c ∈ ds, 0x20 < c.toNat) → ds.dropWhile isBlankEnd = ds := by
    intro ds hds
    cases ds with
    | nil => rfl
    | cons c ds =>
      apply List.dropWhile_cons_of_neg
      have hc := hds c List.mem_cons_self
      simp only [isBlankEnd, decide_eq_true_eq]
      omega
  have hback : ∀ c ∈ cs.reverse, 0x20 < c.toNat := fun c hc => h c (List.mem_reverse.1 hc)
  rw [clean, hends cs h, hends _ hback, List.reverse_reverse]
  apply List.filter_eq_self.2
  intro c hc
  have hc := h c hc
  have hne : ∀ d : Char, d.toNat ≤ 0x20 → c ≠ d := by
    rintro d hd rfl
    omega
  simp [hne '\t' (by decide), hne '\n' (by decide), hne '\r' (by decide)]

theorem keepsMarks : Query.KeepsMarks SchemeKind.web.keeps := by
  refine { percent := by decide, digit := ?_, ampersand := by decide, equals := by decide,
           plus := by decide }
  intro c hc
  by_cases hlt : c.toNat < 128
  · have hall : ∀ n < 128, SchemeKind.web.keeps (Char.ofNat n) = false →
        Text.Percent.hexValue? (Char.ofNat n) = none := by decide
    simpa using hall c.toNat hlt (by simpa using hc)
  · have habove : ∀ d : Char, d.toNat < 128 → ¬c ≤ d := fun d hd hle =>
      hlt (Nat.lt_of_le_of_lt hle hd)
    rw [Text.Percent.hexValue?, if_neg fun h => habove '9' (by decide) h.2,
      if_neg fun h => habove 'f' (by decide) h.2, if_neg fun h => habove 'F' (by decide) h.2]

/-- The part of a URL in front of its query. -/
def webAddress (host path : List Char) : List Char := "http://".toList ++ host ++ path

theorem mem_webAddress (hhost : IsHost host) (hpath : IsPlainPath path)
    (hc : c ∈ webAddress host path) : isPlainChar c = true := by
  rcases List.mem_append.1 hc with hfront | hmem
  · rcases List.mem_append.1 hfront with hscheme | hmem
    · have hall : "http://".toList.all isPlainChar = true := by decide
      exact List.all_eq_true.1 hall c hscheme
    · exact isPlainChar_of_isLower (hhost.lower c hmem)
  · exact hpath.chars c hmem

theorem not_mem_webAddress (hhost : IsHost host) (hpath : IsPlainPath path)
    (hc : isPlainChar c = false) : c ∉ webAddress host path :=
  fun hmem => Bool.false_ne_true (hc.symm.trans (mem_webAddress hhost hpath hmem))

theorem parse?_eq (hhost : IsHost host) (hpath : IsPlainPath path) {query : Option String}
    (hquery : ∀ q ∈ query, IsPlainQuery q.toList) :
    parse? (webAddress host path ++ (marked '?' query).toList) =
      some (path, query.map fun q => Text.Percent.encode SchemeKind.web.keeps q.toList) := by
  have hprintable : ∀ c ∈ webAddress host path ++ (marked '?' query).toList, 0x20 < c.toNat := by
    intro c hc
    rcases List.mem_append.1 hc with hplain | hmarked
    · exact printable_of_isQueryChar (isQueryChar_of_plain (mem_webAddress hhost hpath hplain))
    · exact printable_of_isQueryChar (isQueryChar_of_mem_marked hquery hmarked)
  have hscheme : cutScheme? (webAddress host path ++ (marked '?' query).toList) =
      some (.web, '/' :: '/' :: (host ++ path) ++ (marked '?' query).toList) := by
    have hfront : webAddress host path ++ (marked '?' query).toList =
        "http".toList ++ ':' :: ('/' :: '/' :: (host ++ path) ++ (marked '?' query).toList) := rfl
    rw [hfront, cutScheme?, Text.cut?_append (by decide), Text.cut?, if_pos rfl]
    rfl
  have hmark : '?' ∉ '/' :: '/' :: (host ++ path) := fun hmem =>
    not_mem_webAddress hhost hpath (by decide) (List.mem_append_right "http:".toList hmem)
  rw [parse?, clean_eq hprintable, hscheme]
  simp only [cut?_marked hmark]
  cases query with
  | none => simp [marked, webPath?_eq hhost hpath]
  | some q => simp [webPath?_eq hhost hpath]

end Absolute

namespace RequestTarget
variable {query : Option String}

theorem all_isPathChar (h : IsPlainPath path) : path.all isPathChar = true :=
  List.all_eq_true.2 fun c hc => isPathChar_of_plain (h.chars c hc)

/-- The target that an absolute URL stands for. -/
theorem ofText?_absolute {host path : String} (hhost : IsHost host.toList)
    (hpath : IsPlainPath path.toList) (hquery : ∀ q ∈ query, IsPlainQuery q.toList)
    (fragment : Option String) :
    ofText? ("http://" ++ host ++ path ++ marked '?' query ++ marked '#' fragment) =
      some ⟨path.toList, query.map fun q =>
        Text.Percent.encode Absolute.SchemeKind.web.keeps q.toList⟩ := by
  have hurl : ("http://" ++ host ++ path ++ marked '?' query ++ marked '#' fragment).toList =
      Absolute.webAddress host.toList path.toList ++ (marked '?' query).toList ++
        (marked '#' fragment).toList := by
    unfold Absolute.webAddress
    rw [String.toList_append, String.toList_append, String.toList_append, String.toList_append]
  have hhash : '#' ∉ Absolute.webAddress host.toList path.toList ++ (marked '?' query).toList := by
    rw [List.mem_append, not_or]
    exact ⟨Absolute.not_mem_webAddress hhost hpath (by decide), hash_not_mem_marked hquery⟩
  have habsolute : isAbsolute (Absolute.webAddress host.toList path.toList ++
      (marked '?' query).toList) = true := by
    rw [isAbsolute, textBefore_marked (Absolute.not_mem_webAddress hhost hpath (by decide))]
    rfl
  rw [ofText?, hurl, textBefore_marked hhash, splitPath?, if_pos habsolute,
    Absolute.parse?_eq hhost hpath hquery]
  exact if_pos (all_isPathChar hpath)

/-- The target that the path and the query alone stand for. -/
theorem ofText?_origin {path : String} (hpath : IsPlainPath path.toList)
    (hquery : ∀ q ∈ query, IsPlainQuery q.toList) :
    ofText? (path ++ marked '?' query) = some ⟨path.toList, query.map String.toList⟩ := by
  have hmark : ∀ d : Char, isPlainChar d = false → d ∉ path.toList := fun d hd hmem =>
    Bool.false_ne_true (hd.symm.trans (hpath.chars d hmem))
  have hhash : '#' ∉ (path ++ marked '?' query).toList := by
    rw [String.toList_append, List.mem_append, not_or]
    exact ⟨hmark '#' (by decide), hash_not_mem_marked hquery⟩
  have hquestion : '?' ∉ path.toList := hmark '?' (by decide)
  have hbefore : textBefore '?' (path ++ marked '?' query).toList = path.toList := by
    rw [String.toList_append, textBefore_marked hquestion]
  have hquery : queryOf (path ++ marked '?' query).toList = query.map String.toList := by
    rw [queryOf, String.toList_append, cut?_marked hquestion, Option.map_map]
    rfl
  have hrelative : IsRelative (path ++ marked '?' query) := by
    rw [IsRelative, textBefore_of_not_mem hhash, isAbsolute, hbefore, Bool.eq_false_iff]
    exact fun h => hpath.scheme (isInfix_of_holdsScheme h)
  rw [ofText?_of_relative hrelative, relativePath, textBefore_of_not_mem hhash, hbefore, hquery]
  exact if_pos (all_isPathChar hpath)

end RequestTarget
end Routes.Request
