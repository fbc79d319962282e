import Routes.Proofs.Request.Absolute
import Routes.Proofs.Table.Resolve
/-!
Absolute requests. Main statement: a table resolves the URL of a plain path as it resolves the path
and the query alone.
-/
namespace Routes
open Request (IsHost IsPlainPath IsPlainQuery marked RequestTarget)

namespace Table

/-- The query of a request counts only by what is read from it. -/
theorem resolveTarget_encode (t : Table) (method : String) (path : List Char)
    {query : Option String} (hquery : ∀ q ∈ query, IsPlainQuery q.toList) :
    t.resolveTarget method ⟨path, query.map fun q =>
        Text.Percent.encode Request.Absolute.SchemeKind.web.keeps q.toList⟩ =
      t.resolveTarget method ⟨path, query.map String.toList⟩ := by
  cases query with
  | none => rfl
  | some q =>
    have hspace : ' ' ∉ q.toList := fun hmem => absurd (hquery q rfl ' ' hmem) (by decide)
    have hread : Request.Query.ofText (String.ofList
        (Text.Percent.encode Request.Absolute.SchemeKind.web.keeps q.toList)) =
        Request.Query.ofText (String.ofList q.toList) :=
      Request.Query.ofText_encode Request.Absolute.keepsMarks hspace
    simp only [resolveTarget, Option.map_some, hread]

/-- Scheme, host and fragment of a request change nothing about its outcome: neither the target and
its place in the table nor the parameters of path and query. -/
theorem resolve_absolute (t : Table) (method : String) {host path : String} {query : Option String}
    (fragment : Option String) (hhost : IsHost host.toList) (hpath : IsPlainPath path.toList)
    (hquery : ∀ q ∈ query, IsPlainQuery q.toList) :
    t.resolve method ("http://" ++ host ++ path ++ marked '?' query ++ marked '#' fragment) =
      t.resolve method (path ++ marked '?' query) := by
  rw [resolve, resolve, RequestTarget.ofText?_absolute hhost hpath hquery,
    RequestTarget.ofText?_origin hpath hquery]
  exact t.resolveTarget_encode method path.toList hquery

/-- Links that are followed by way of this table. -/
def linkTable : Table :=
  ⟨[(.get, [.ofEntry .standard .get ("Link", ⟨"follow", "GET", [.literal "go", .capture .text],
    ["to"]⟩)])], ⟨"Link", "all"⟩, "", ""⟩

/-- A query with a URL in it, with characters that are coded in queries of URLs, and with a percent
sign that begins no code. -/
def linkQuery : String := "u=http://b/?c&q=%22it's%22+\"<%2>&tags[]=1&tags[]=%e2%82"

theorem resolve_absolute_link :
    IsHost "example".toList ∧ IsPlainPath "/go/a%zz@b:c%2F/".toList ∧
      IsPlainQuery linkQuery.toList ∧
      linkTable.resolve "get" ("http://" ++ "example" ++ "/go/a%zz@b:c%2F/" ++
          marked '?' (some linkQuery) ++ marked '#' (some "top of #1")) =
        linkTable.resolve "get" ("/go/a%zz@b:c%2F/" ++ marked '?' (some linkQuery)) ∧
      linkTable.resolve "get" ("/go/a%zz@b:c%2F/" ++ marked '?' (some linkQuery)) =
        ⟨"Link", "follow", [("to", "a%zz@b:c/")],
          [("u", ["http://b/?c"]), ("q", ["\"it's\" \"<%2>"]), ("tags", ["1", "\uFFFD"])],
          .matched 0⟩ := by
  have hhost : IsHost "example".toList :=
    ⟨by decide, List.all_eq_true.1 (by decide : "example".toList.all Char.isLower = true)⟩
  have hpath : IsPlainPath "/go/a%zz@b:c%2F/".toList := by
    refine ⟨by decide, ?_, by decide +kernel, by decide⟩
    exact List.all_eq_true.1
      (by decide : "/go/a%zz@b:c%2F/".toList.all Request.isPlainChar = true)
  have hquery : IsPlainQuery linkQuery.toList :=
    List.all_eq_true.1 (by decide : linkQuery.toList.all Request.isQueryChar = true)
  have hqueries : ∀ q ∈ some linkQuery, IsPlainQuery q.toList := by
    rintro q ⟨⟩
    exact hquery
  have hresolve : linkTable.resolve "get" ("/go/a%zz@b:c%2F/" ++ marked '?' (some linkQuery)) =
      ⟨"Link", "follow", [("to", "a%zz@b:c/")],
        [("u", ["http://b/?c"]), ("q", ["\"it's\" \"<%2>"]), ("tags", ["1", "\uFFFD"])],
        .matched 0⟩ := by
    decide +kernel
  exact ⟨hhost, hpath, hquery,
    linkTable.resolve_absolute "get" (some "top of #1") hhost hpath hqueries, hresolve⟩

end Table
end Routes
