import Routes.Proofs.Grammar
/-!
Streams one behind the other. Main statement: where no token touches the next stream, two streams
without the end between them declare what each of them does.
-/
namespace Routes

/-- The declarations of both, those of the first in front. -/
def Declarations.append (ds ds' : Declarations) : Declarations :=
  ⟨ds.controllers ++ ds'.controllers, ds.defaults ++ ds'.defaults⟩

namespace Grammar

/-- The last of some tokens does not touch the first of others. -/
def Apart (ts us : List Token) : Prop := ∀ l ∈ ts.getLast?, ∀ f ∈ us.head?, ¬Adjacent l f

variable {ts us v : List Token} {e : Token}

theorem Apart.of_append (h : Apart (ts ++ v) us) : Apart v us := by
  intro l hl
  refine h l ?_
  rw [List.getLast?_append, Option.mem_def.1 hl]
  rfl

theorem Greedy.replace (h : Greedy ts (v ++ [e])) (hapart : Apart (ts ++ v) us) :
    Greedy ts (v ++ us) := by
  cases v with
  | nil =>
    rw [List.append_nil] at hapart
    exact fun last hlast _ next hnext hadj => absurd hadj (hapart last hlast next hnext)
  | cons t v => exact h

/-- The tokens of an action, and that they are one in front of other tokens as well. -/
theorem IsAction.replace {a : ActionDecl} (h : IsAction ts (v ++ [e]) a) :
    ∃ u, ts = u ++ (v ++ [e]) ∧ (Apart (u ++ v) us → IsAction (u ++ (v ++ us)) (v ++ us) a) := by
  cases h with
  | @mk n w v' url mark _ verb u isDefault hn hw hv hurl hgreedy hmark =>
    refine ⟨n :: w :: v' :: (url ++ mark), by simp, fun hapart => ?_⟩
    have happend : Apart ([n, w, v'] ++ (url ++ (mark ++ v))) us := by simpa using hapart
    rw [← List.append_assoc] at hgreedy
    have hgreedy' := hgreedy.replace happend.of_append
    rw [List.append_assoc] at hgreedy'
    have haction := IsAction.mk hn hw hv hurl hgreedy' hmark
    simpa using haction

theorem IsActions.replace {as : List ActionDecl} (h : IsActions ts (v ++ [e]) as) :
    ∃ u, ts = u ++ (v ++ [e]) ∧
      (Apart (u ++ v) us → IsActions (u ++ (v ++ us)) (v ++ us) as) := by
  generalize hrest : v ++ [e] = rest at h
  induction h with
  | nil => exact ⟨[], rfl, fun _ => .nil⟩
  | cons ha _ ih =>
    obtain ⟨u, rfl, hactions⟩ := ih hrest
    subst hrest
    rw [← List.append_assoc] at ha
    obtain ⟨u', rfl, haction⟩ := ha.replace
    refine ⟨u' ++ u, by simp, fun hapart => ?_⟩
    rw [List.append_assoc] at hapart ⊢
    have ha' := haction hapart
    rw [List.append_assoc] at ha'
    exact .cons ha' (hactions hapart.of_append)

theorem IsController.replace {d : ControllerDecl} (h : IsController ts (v ++ [e]) d) :
    ∃ u, ts = u ++ (v ++ [e]) ∧
      (Apart (u ++ v) us → IsController (u ++ (v ++ us)) (v ++ us) d) := by
  cases h with
  | @mk w n mark x ts ends _ as isDefault hw hn hmark hx hacts hlength hends =>
    rw [← List.append_assoc] at hacts
    obtain ⟨u, rfl, hacts'⟩ := hacts.replace
    refine ⟨w :: n :: (mark ++ x :: (u ++ ends)), by simp, fun hapart => ?_⟩
    have happend : Apart (w :: n :: (mark ++ [x]) ++ (u ++ (ends ++ v))) us := by
      simpa using hapart
    have hactions := hacts' happend.of_append
    rw [List.append_assoc] at hactions
    have hcontroller := IsController.mk hw hn hmark hx hactions hlength hends
    simpa using hcontroller

theorem IsDefault.replace {d : DefaultDecl} (h : IsDefault ts (v ++ [e]) d) :
    ∃ u, ts = u ++ (v ++ [e]) ∧ IsDefault (u ++ (v ++ us)) (v ++ us) d := by
  cases h with
  | mk hw hx hc hh ha => exact ⟨[_, _, _, _, _], rfl, .mk hw hx hc hh ha⟩

/-- The end of a stream is nothing but the place where the next one may begin. -/
theorem IsSource.append {ds ds' : Declarations} (h : IsSource ts ds) (h' : IsSource us ds') :
    ∃ u e, ts = u ++ [e] ∧ (Apart u us → IsSource (u ++ us) (ds.append ds')) := by
  induction h with
  | done he => exact ⟨[], _, rfl, fun _ => h'⟩
  | controller hd _ ih =>
    obtain ⟨v, e, rfl, hsource⟩ := ih
    obtain ⟨u, rfl, hd'⟩ := hd.replace
    refine ⟨u ++ v, e, by simp, fun hapart => ?_⟩
    rw [List.append_assoc]
    exact .controller (hd' hapart) (hsource hapart.of_append)
  | default hd _ ih =>
    obtain ⟨v, e, rfl, hsource⟩ := ih
    obtain ⟨u, rfl, hd'⟩ := hd.replace
    refine ⟨u ++ v, e, by simp, fun hapart => ?_⟩
    rw [List.append_assoc]
    exact .default hd' (hsource hapart.of_append)

end Grammar
end Routes
