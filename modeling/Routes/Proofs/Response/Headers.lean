import Routes.Response
/-!
Headers of a response as a map. Main statement: whatever headers are set on a response, they stand
for the calls that set them: each name once in any case, with the value and the spelling of its last
call, and in the order of these last calls.
-/
namespace Routes.Response

/-- A name with its value, as it is stored and as a call sets it. -/
abbrev Header := String × String

variable {a b c name : String} {h call : Header} {r : Response} {calls done : List Header}

theorem sameName_iff : sameName a b = true ↔ Text.lower a.toList = Text.lower b.toList := beq_iff_eq

theorem sameName_comm (a b : String) : sameName a b = sameName b a := by
  rw [Bool.eq_iff_iff, sameName_iff, sameName_iff, eq_comm]

/-- Two names in the same case class are the same name or not as any third one. -/
theorem sameName_congr (hab : sameName a b = true) (c : String) : sameName a c = sameName b c := by
  rw [Bool.eq_iff_iff, sameName_iff, sameName_iff, sameName_iff.1 hab]

/-- Headers set one after the other, in place or on a copy. -/
def setHeaders (r : Response) (calls : List Header) : Response :=
  calls.foldl (fun r (name, value) => r.setHeader name value) r

/-- The calls whose names no later call has, in any case. -/
def lastCalls : List Header → List Header
  | [] => []
  | call :: calls =>
    if calls.any fun later => sameName later.1 call.1 then lastCalls calls
    else call :: lastCalls calls

/-- The value of the last call that has a name in any case. -/
def lastValue? (calls : List Header) (name : String) : Option String :=
  (calls.reverse.find? fun call => sameName call.1 name).map (·.2)

/-- Where responses come from. -/
inductive Origin where
  | json (status : Nat) (body : Json)
  | ok (body : Json)
  | error (status : Nat) (message : String)

def Origin.response : Origin → Response
  | json status body => .json status body
  | ok body => .ok body
  | error status message => .error status message

/-- The header that every response begins with. -/
def jsonType : Header := ("content-type", "application/json")

theorem Origin.headers_response (o : Origin) : o.response.headers = [jsonType] := by
  cases o <;> rfl

/-- The headers of a response after some calls. -/
structure Keeps (r : Response) (calls : List Header) : Prop where
  distinct : r.headers.Pairwise fun h later => sameName h.1 later.1 = false
  value : ∀ name, r.header? name = (lastValue? calls name).or
    (if sameName jsonType.1 name then some jsonType.2 else none)
  order : r.headers = lastCalls (jsonType :: calls)

/-- What one more call does to all other headers: nothing, nor to their order. -/
structure Spares (r : Response) (name value : String) : Prop where
  others : ∀ other, sameName name other = false →
    (r.setHeader name value).header? other = r.header? other
  order : ((r.setHeader name value).headers.filter fun h => !sameName h.1 name) =
    r.headers.filter fun h => !sameName h.1 name
  rest : (r.setHeader name value).status = r.status ∧ (r.setHeader name value).body = r.body

section LastCalls

theorem mem_of_mem_lastCalls (hmem : h ∈ lastCalls calls) : h ∈ calls := by
  induction calls with
  | nil => exact hmem
  | cons call calls ih =>
    rw [lastCalls] at hmem
    split at hmem
    · exact List.mem_cons_of_mem call (ih hmem)
    · rcases List.mem_cons.1 hmem with rfl | hmem
      · exact List.mem_cons_self
      · exact List.mem_cons_of_mem call (ih hmem)

theorem pairwise_lastCalls (calls : List Header) :
    (lastCalls calls).Pairwise fun h later => sameName h.1 later.1 = false := by
  induction calls with
  | nil => exact List.Pairwise.nil
  | cons call calls ih =>
    rw [lastCalls]
    split
    · exact ih
    · rename_i hlast
      refine List.pairwise_cons.2 ⟨fun later hlater => ?_, ih⟩
      rw [sameName_comm, ← Bool.not_eq_true]
      exact fun hsame => hlast (List.any_eq_true.2 ⟨later, mem_of_mem_lastCalls hlater, hsame⟩)

/-- A call overrides the calls before it that have its name, and comes behind all others. -/
theorem lastCalls_concat (calls : List Header) (call : Header) : lastCalls (calls ++ [call]) =
    (lastCalls calls).filter (fun h => !sameName h.1 call.1) ++ [call] := by
  induction calls with
  | nil => rfl
  | cons first calls ih =>
    have hany : (calls ++ [call]).any (fun later => sameName later.1 first.1) =
        (calls.any (fun later => sameName later.1 first.1) || sameName first.1 call.1) := by
      rw [List.any_append, List.any_cons, List.any_nil, Bool.or_false, sameName_comm first.1]
    rw [List.cons_append, lastCalls, lastCalls, hany, ih]
    cases calls.any fun later => sameName later.1 first.1 with
    | true => rfl
    | false =>
      cases hsame : sameName first.1 call.1 <;> simp [hsame]

/-- The header of a name among those that count is the last call that has the name. -/
theorem find?_lastCalls (calls : List Header) (name : String) :
    (lastCalls calls).find? (fun h => sameName h.1 name) =
      calls.reverse.find? fun h => sameName h.1 name := by
  induction calls with
  | nil => rfl
  | cons call calls ih =>
    rw [List.reverse_cons, List.find?_append, List.find?_singleton, lastCalls]
    cases hname : sameName call.1 name with
    | false =>
      rw [if_neg Bool.false_ne_true, Option.or_none, ← ih]
      split
      · rfl
      · rw [List.find?_cons_of_neg (by simp [hname])]
    | true =>
      -- The names that are the same as that of the call are those that are looked for.
      have hsame : (fun later : Header => sameName later.1 call.1) =
          fun later => sameName later.1 name := by
        funext later
        rw [sameName_comm, sameName_congr hname, sameName_comm]
      rw [hsame]
      have hany : (calls.any fun later => sameName later.1 name) =
          (calls.reverse.find? fun later => sameName later.1 name).isSome := by
        rw [List.isSome_find?, List.any_reverse]
      rw [hany, if_pos rfl, ← ih]
      cases hfind : (lastCalls calls).find? fun later => sameName later.1 name with
      | some later => exact hfind
      | none => exact List.find?_cons_of_pos (p := fun h : Header => sameName h.1 name) hname

theorem lastValue?_cons (call : Header) (calls : List Header) (name : String) :
    lastValue? (call :: calls) name =
      (lastValue? calls name).or (if sameName call.1 name then some call.2 else none) := by
  rw [lastValue?, List.reverse_cons, List.find?_append, List.find?_singleton, Option.map_or]
  cases sameName call.1 name <;> rfl

end LastCalls

theorem header?_of_headers (hr : r.headers = lastCalls calls) (name : String) :
    r.header? name = lastValue? calls name := by
  rw [header?, hr, lastValue?, ← find?_lastCalls]

/-- A call on a response whose headers stand for some calls. -/
theorem headers_setHeader (hr : r.headers = lastCalls calls) (call : Header) :
    (r.setHeader call.1 call.2).headers = lastCalls (calls ++ [call]) := by
  rw [setHeader, lastCalls_concat, hr]

theorem headers_setHeaders (hr : r.headers = lastCalls done) (calls : List Header) :
    (r.setHeaders calls).headers = lastCalls (done ++ calls) := by
  induction calls generalizing r done with
  | nil => rw [List.append_nil]; exact hr
  | cons call calls ih =>
    have hrest := ih (headers_setHeader hr call)
    rwa [List.append_assoc, List.singleton_append] at hrest

theorem spares (r : Response) (name value : String) : r.Spares name value where
  others other hother := by
    have hnew : [(name, value)].find? (fun h => sameName h.1 other) = none := by
      rw [List.find?_singleton, hother]
      rfl
    -- A header with the other name does not go with those of the name that is set.
    have hkept : (fun h : Header =>
        decide ((!sameName h.1 name) = true ∧ sameName h.1 other = true)) =
        fun h => sameName h.1 other := by
      funext h
      cases hh : sameName h.1 other with
      | false => simp
      | true =>
        have hname : sameName h.1 name = false := by
          rw [sameName_congr hh, sameName_comm, hother]
        simp [hname]
    rw [header?, header?, setHeader, List.find?_append, hnew, Option.or_none, List.find?_filter,
      hkept]
  order := by
    have hnew : [(name, value)].filter (fun h => !sameName h.1 name) = [] :=
      List.filter_cons_of_neg (by simp [sameName])
    rw [setHeader, List.filter_append, List.filter_filter, hnew, List.append_nil]
    simp only [Bool.and_self]
  rest := ⟨rfl, rfl⟩

/-- Headers set on a response make a map that forgets the case of its keys, and no call touches the
headers of other names. -/
theorem keeps_setHeaders (o : Origin) (calls : List Header) :
    (o.response.setHeaders calls).Keeps calls ∧
      ∀ name value, (o.response.setHeaders calls).Spares name value := by
  have hstart : o.response.headers = lastCalls [jsonType] := o.headers_response
  have horder := headers_setHeaders hstart calls
  refine ⟨⟨?_, fun name => ?_, horder⟩, spares _⟩
  · rw [horder]
    exact pairwise_lastCalls _
  · rw [header?_of_headers horder]
    exact lastValue?_cons jsonType calls name

example :
    let calls := [("X-Tag", "a"), ("Content-Type", "text/plain"), ("x-tag", "b")]
    ((ok .null).setHeaders calls).headers = [("Content-Type", "text/plain"), ("x-tag", "b")] := by
  decide

end Routes.Response
