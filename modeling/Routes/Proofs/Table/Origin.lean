import Routes.Proofs.Request.Origin
import Routes.Proofs.Table.Absolute
/-!
Requests that begin with a slash. Main statement: such a request is matched by its path and keeps
its query, but for a path that holds a colon in front of two slashes. It goes to the default without
its query.
-/
namespace Routes
open Request (originPath originQuery? isPathChar)

namespace Table

theorem query_resolveTarget (t : Table) (method : String) (target : Request.RequestTarget) :
    (t.resolveTarget method target).query = target.decodedQuery := by
  simp only [resolveTarget]
  split <;> rfl

/-- A slash at the front does not make up for a scheme inside of the path: the request counts as a
URL, and as one that cannot be read. -/
theorem resolve_origin (t : Table) (method : String) {url : String}
    (hslash : url.toList.head? = some '/') (hpath : ∀ c ∈ originPath url, isPathChar c = true) :
    (¬"://".toList <:+: originPath url →
      t.resolve method url = t.resolveTarget method ⟨originPath url, originQuery? url⟩ ∧
      (t.resolve method url).query =
        ((originQuery? url).map fun q => Request.Query.ofText (String.ofList q)).getD []) ∧
    ("://".toList <:+: originPath url → t.resolve method url = t.fallback []) := by
  constructor
  · intro hscheme
    have hresolve : t.resolve method url =
        t.resolveTarget method ⟨originPath url, originQuery? url⟩ := by
      rw [resolve, Request.RequestTarget.ofText?_of_not_scheme hpath hscheme]
    refine ⟨hresolve, ?_⟩
    rw [hresolve, query_resolveTarget]
    rfl
  · intro hscheme
    rw [resolve, Request.RequestTarget.ofText?_of_scheme hslash hscheme]

/-- A path with a link in it. -/
theorem scheme_infix_linkPath : "://".toList <:+: originPath "/go/http://b?x=1" :=
  ⟨"/go/http".toList, "b".toList, by decide⟩

/-- A link in the query and one in the path. -/
theorem resolve_origin_link :
    (linkTable.resolve "get" "/go/a?u=http://b/?c#?x=1").query = [("u", ["http://b/?c"])] ∧
      linkTable.resolve "get" "/go/http://b?x=1" = linkTable.fallback [] := by
  have hchars : ∀ url, (originPath url).all isPathChar = true →
      ∀ c ∈ originPath url, isPathChar c = true := fun _ => List.all_eq_true.1
  constructor
  · have hscheme : ¬"://".toList <:+: originPath "/go/a?u=http://b/?c#?x=1" :=
      fun h => absurd (h.subset (by decide : ':' ∈ "://".toList)) (by decide)
    have hquery := @resolve_origin linkTable "get" "/go/a?u=http://b/?c#?x=1" (by decide)
      (hchars _ (by decide))
    exact (hquery.1 hscheme).2.trans (by decide +kernel)
  · have hpath := @resolve_origin linkTable "get" "/go/http://b?x=1" (by decide)
      (hchars _ (by decide))
    exact hpath.2 scheme_infix_linkPath

/-- The query of a request is not kept whatever its path holds. -/
theorem query_lost_behind_scheme : ¬∀ (t : Table) (method url : String),
    url.toList.head? = some '/' → (∀ c ∈ originPath url, isPathChar c = true) →
      (t.resolve method url).query =
        ((originQuery? url).map fun q => Request.Query.ofText (String.ofList q)).getD [] := by
  intro h
  have hslash : "/go/http://b?x=1".toList.head? = some '/' := by decide
  have hall : (originPath "/go/http://b?x=1").all isPathChar = true := by decide
  have hkept := h linkTable "get" "/go/http://b?x=1" hslash (List.all_eq_true.1 hall)
  rw [resolve, Request.RequestTarget.ofText?_of_scheme hslash scheme_infix_linkPath] at hkept
  exact absurd hkept (by decide)

end Table
end Routes
