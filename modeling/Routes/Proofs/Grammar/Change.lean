import Routes.Proofs.Grammar
import Routes.Proofs.Position
/-!
Other texts at other places. Main statement: a stream whose tokens get other texts, and other places
at one distance from the old ones, declares what it did with these texts and places.
-/
namespace Routes.Grammar

/-- A change of texts and places that moves all offsets by one distance. -/
structure Change where
  text : String → String
  place : Position → Position
  distance : Nat
  offset_place : ∀ p, (place p).offset = p.offset + distance

namespace Change

/-- Texts stay the same, places move on by some lines and bytes. -/
def move (lines bytes : Nat) : Change := ⟨id, Position.moved lines bytes, bytes, fun _ => rfl⟩

variable (f : Change)

def token (t : Token) : Token := { t with text := f.text t.text, position := f.place t.position }

def part : UrlPart → UrlPart
  | .literal text => .literal (f.text text)
  | .param name kind => .param (f.text name) kind

def url (u : Url) : Url := { u with parts := u.parts.map f.part }

def action (a : ActionDecl) : ActionDecl :=
  { a with name := f.text a.name, url := f.url a.url, position := f.place a.position }

def controller (c : ControllerDecl) : ControllerDecl :=
  ⟨f.text c.name, c.actions.map f.action, c.isDefault, f.place c.position⟩

def default (d : DefaultDecl) : DefaultDecl :=
  ⟨f.text d.controller, f.text d.action, f.place d.position⟩

def declarations (ds : Declarations) : Declarations :=
  ⟨ds.controllers.map f.controller, ds.defaults.map f.default⟩

@[simp] theorem token_move (lines bytes n : Nat) (k : Token.Kind) (text : String) (p : Position) :
    (move lines bytes).token ⟨k, text, p, n⟩ = ⟨k, text, p.moved lines bytes, n⟩ := rfl

theorem adjacent_iff (a b : Token) : Adjacent (f.token a) (f.token b) ↔ Adjacent a b := by
  simp only [Adjacent, token, Token.endOffset, f.offset_place]
  omega

theorem getLastD_map (ts : List Token) (t : Token) :
    (ts.map f.token).getLastD (f.token t) = f.token (ts.getLastD t) := by
  simp only [List.getLastD_eq_getLast?, List.getLast?_map, Option.getD_map]

end Change

variable {ts rest : List Token} {t l : Token} (f : Change)

theorem IsKind.change {k : ParamKind} (h : IsKind t k) : IsKind (f.token t) k := by
  cases h with
  | int h => exact .int h
  | text h => exact .text h

theorem IsPart.change {p : UrlPart} (h : IsPart t ts p) :
    IsPart (f.token t) (ts.map f.token) (f.part p) := by
  cases h with
  | literal h => exact .literal h
  | bracket hl hn hg => exact .bracket hl hn hg
  | bracketKind hl hn hq hk hg => exact .bracketKind hl hn hq (hk.change f) hg
  | colon hq hn hadj => exact .colon hq hn ((f.adjacent_iff _ _).2 hadj)
  | colonKind hq hn hadj ho hadj' hk hp =>
    exact .colonKind hq hn ((f.adjacent_iff _ _).2 hadj) ho ((f.adjacent_iff _ _).2 hadj')
      (hk.change f) hp

theorem IsTail.change {ps : List UrlPart} (h : IsTail l ts ps) :
    IsTail (f.token l) (ts.map f.token) (ps.map f.part) := by
  induction h with
  | done => exact .done
  | slash hs hadj => exact .slash hs ((f.adjacent_iff _ _).2 hadj)
  | more hs hadj hadj' hp _ ih =>
    rw [← f.getLastD_map] at ih
    simp only [List.map_cons, List.map_append]
    exact .more hs ((f.adjacent_iff _ _).2 hadj) ((f.adjacent_iff _ _).2 hadj') (hp.change f) ih

theorem IsUrl.change {u : Url} (h : IsUrl ts u) : IsUrl (ts.map f.token) (f.url u) := by
  cases h with
  | root hs => exact .root hs
  | absolute hs hadj hp ht =>
    have ht' := ht.change f
    rw [← f.getLastD_map] at ht'
    simp only [List.map_cons, List.map_append]
    exact .absolute hs ((f.adjacent_iff _ _).2 hadj) (hp.change f) ht'
  | relative hp ht =>
    have ht' := ht.change f
    rw [← f.getLastD_map] at ht'
    simp only [List.map_cons, List.map_append]
    exact .relative (hp.change f) ht'

theorem Greedy.change (h : Greedy ts rest) : Greedy (ts.map f.token) (rest.map f.token) := by
  intro last hlast hslash next hnext hadj
  rw [List.getLast?_map] at hlast
  rw [List.head?_map] at hnext
  obtain ⟨l, hl, rfl⟩ := Option.map_eq_some_iff.1 hlast
  obtain ⟨n, hn, rfl⟩ := Option.map_eq_some_iff.1 hnext
  exact h l hl hslash n hn ((f.adjacent_iff l n).1 hadj)

theorem IsMark.change {d : Bool} (h : IsMark ts d) : IsMark (ts.map f.token) d := by
  cases h with
  | absent => exact .absent
  | present hm => exact .present hm

theorem IsAction.change {a : ActionDecl} (h : IsAction ts rest a) :
    IsAction (ts.map f.token) (rest.map f.token) (f.action a) := by
  cases h with
  | mk hn ha hv hurl hgreedy hmark =>
    have hgreedy' := hgreedy.change f
    simp only [List.map_cons, List.map_append] at hgreedy' ⊢
    exact .mk hn ha hv (hurl.change f) hgreedy' (hmark.change f)

theorem IsActions.change {as : List ActionDecl} (h : IsActions ts rest as) :
    IsActions (ts.map f.token) (rest.map f.token) (as.map f.action) := by
  induction h with
  | nil => exact .nil
  | cons ha _ ih => exact .cons (ha.change f) ih

theorem IsController.change {d : ControllerDecl} (h : IsController ts rest d) :
    IsController (ts.map f.token) (rest.map f.token) (f.controller d) := by
  cases h with
  | @mk w n mark x ts ends rest as isDefault hw hn hmark hx hacts hlength hends =>
    have hacts' := hacts.change f
    simp only [List.map_cons, List.map_append] at hacts' ⊢
    have hends' : ∀ e ∈ ends.map f.token, e.kind = .keyword .close :=
      List.forall_mem_map.2 fun e he => hends e he
    exact .mk hw hn (hmark.change f) hx hacts' (by rwa [List.length_map]) hends'

theorem IsDefault.change {d : DefaultDecl} (h : IsDefault ts rest d) :
    IsDefault (ts.map f.token) (rest.map f.token) (f.default d) := by
  cases h with
  | mk hw hx hc hh ha => exact .mk hw hx hc hh ha

theorem IsSource.change {ds : Declarations} (h : IsSource ts ds) :
    IsSource (ts.map f.token) (f.declarations ds) := by
  induction h with
  | done he => exact .done he
  | controller hd _ ih => exact .controller (hd.change f) ih
  | default hd _ ih => exact .default (hd.change f) ih

end Routes.Grammar
