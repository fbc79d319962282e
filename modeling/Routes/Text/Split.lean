/-!
Cutting a text at a separator, and counting its bytes. `pieces` never loses a character:
joining the pieces with the separator gives the text back.
-/
namespace Routes.Text

/-- The texts between the occurrences of a separator; there is always at least one. -/
def pieces (sep : Char) : List Char → List (List Char)
  | [] => [[]]
  | c :: cs =>
    if c = sep then [] :: pieces sep cs else
      match pieces sep cs with
      | [] => [[c]]
      | p :: ps => (c :: p) :: ps

/-- The texts before and after the first occurrence of a separator. -/
def cut? (sep : Char) : List Char → Option (List Char × List Char)
  | [] => none
  | c :: cs => if c = sep then some ([], cs) else (cut? sep cs).map fun (a, b) => (c :: a, b)

/-- What follows a given beginning. -/
def after? : List Char → List Char → Option (List Char)
  | [], cs => some cs
  | _ :: _, [] => none
  | b :: bs, c :: cs => if b = c then after? bs cs else none

def join (sep : Char) (ps : List (List Char)) : List Char := List.intercalate [sep] ps

/-- The number of bytes of a text in UTF-8. -/
def byteLength : List Char → Nat
  | [] => 0
  | c :: cs => c.utf8Size + byteLength cs

/-- ASCII letters in upper case, all else unchanged. -/
def upper (cs : List Char) : List Char := cs.map Char.toUpper

/-- ASCII letters in lower case, all else unchanged. -/
def lower (cs : List Char) : List Char := cs.map Char.toLower

theorem pieces_ne_nil (sep : Char) (cs : List Char) : pieces sep cs ≠ [] := by
  cases cs with
  | nil => simp [pieces]
  | cons c cs =>
    simp only [pieces]
    split
    · simp
    · split <;> simp

theorem after?_append (b cs : List Char) : after? b (b ++ cs) = some cs := by
  induction b with
  | nil => rfl
  | cons x xs ih => simp [after?, ih]

theorem eq_append_of_after? {b cs r : List Char} (h : after? b cs = some r) : cs = b ++ r := by
  induction b generalizing cs with
  | nil => simpa [after?] using h
  | cons x xs ih =>
    cases cs with
    | nil => simp [after?] at h
    | cons c cs =>
      simp only [after?] at h
      split at h
      · subst_vars
        simp [← ih h]
      · simp at h

theorem cut?_eq_some {sep : Char} {cs a b : List Char} (h : cut? sep cs = some (a, b)) :
    cs = a ++ sep :: b ∧ sep ∉ a := by
  induction cs generalizing a b with
  | nil => simp [cut?] at h
  | cons c cs ih =>
    simp only [cut?] at h
    split at h
    · simp_all
    · obtain ⟨⟨a', b'⟩, hc, he⟩ := Option.map_eq_some_iff.1 h
      simp only [Prod.mk.injEq] at he
      obtain ⟨rfl, rfl⟩ := he
      obtain ⟨rfl, hn⟩ := ih hc
      refine ⟨by simp, ?_⟩
      simp only [List.mem_cons, not_or]
      exact ⟨fun he => by simp_all, hn⟩

theorem mem_join {sep c : Char} {ps : List (List Char)} (h : c ∈ join sep ps) :
    c = sep ∨ ∃ p ∈ ps, c ∈ p := by
  induction ps with
  | nil => simp [join] at h
  | cons p ps ih =>
    cases ps with
    | nil => exact .inr ⟨p, List.mem_singleton_self p, by simpa [join] using h⟩
    | cons q ps =>
      simp only [join, List.intercalate_cons_cons, List.mem_append, List.mem_singleton] at h
      rcases h with (hp | hsep) | hjoin
      · exact .inr ⟨p, List.mem_cons_self, hp⟩
      · exact .inl hsep
      · rcases ih hjoin with hsep | ⟨q', hq, hc⟩
        · exact .inl hsep
        · exact .inr ⟨q', List.mem_cons_of_mem p hq, hc⟩

theorem mem_of_mem_pieces {sep c : Char} {p cs : List Char} (hp : p ∈ pieces sep cs) (h : c ∈ p) :
    c ∈ cs := by
  induction cs generalizing p with
  | nil =>
    rw [List.mem_singleton.1 hp] at h
    cases h
  | cons d cs ih =>
    simp only [pieces] at hp
    split at hp
    · rcases List.mem_cons.1 hp with rfl | hp
      · cases h
      · exact List.mem_cons_of_mem d (ih hp h)
    · split at hp
      · rw [List.mem_singleton.1 hp, List.mem_singleton] at h
        exact h ▸ List.mem_cons_self
      · rename_i q qs hpieces
        rcases List.mem_cons.1 hp with rfl | hp
        · rcases List.mem_cons.1 h with rfl | h
          · exact List.mem_cons_self
          · exact List.mem_cons_of_mem d (ih (hpieces ▸ List.mem_cons_self) h)
        · exact List.mem_cons_of_mem d (ih (hpieces ▸ List.mem_cons_of_mem q hp) h)

theorem cut?_eq_none {sep : Char} {cs : List Char} (h : sep ∉ cs) : cut? sep cs = none := by
  cases hcut : cut? sep cs with
  | none => rfl
  | some ab =>
    have hcs := (cut?_eq_some hcut).1
    exact absurd (hcs ▸ List.mem_append_right _ List.mem_cons_self) h

end Routes.Text
