import GinRpc.Data.Path
import GinRpc.Gateway.Routes

/-!
# The path that is sent upstream

Model of how `proxyRequest` in `plugins/gateway/proxy.go` makes the path of the upstream request
from the path of the target and the path of the request: the server has decoded the path, the prefix
of the route may be taken away, and `path.Join` cleans the result.

* `Gateway.confined_iff` : the path stays below that of the target exactly if what is joined to it
  returns from wherever it climbs to.
* `Gateway.climbs_out` : `..` elements, also encoded ones, are resolved after the base was put in
  front of them.
* `Gateway.upstreamPath_pattern` : the prefix of a route is taken away, where it should be, exactly
  if its pattern has no wildcard; `Gateway.strips_nothing` : the text of a wildcard is not found.
-/

namespace GinRpc

namespace Gateway

/-- The value of a hexadecimal digit -/
def unhex (c : Char) : Option ℕ :=
  if '0' ≤ c ∧ c ≤ '9' then some (c.toNat - '0'.toNat)
  else if 'a' ≤ c ∧ c ≤ 'f' then some (c.toNat - 'a'.toNat + 10)
  else if 'A' ≤ c ∧ c ≤ 'F' then some (c.toNat - 'A'.toNat + 10)
  else none

/-- How the server decodes the path of a request; a character is a byte. -/
def unescape : Text → Option Text
  | [] => some []
  | '%' :: a :: b :: rest => do
    let high ← unhex a
    let low ← unhex b
    let decoded ← unescape rest
    return Char.ofNat (16 * high + low) :: decoded
  | '%' :: _ => none
  | c :: rest => do
    let decoded ← unescape rest
    return c :: decoded

/-- `strings.TrimPrefix` -/
def trimPrefix (t start : Text) : Text := if start.isPrefixOf t then t.drop start.length else t

/-- What is joined to the path of the target -/
def proxyPath (config : RouteConfig) (path : Text) : Text :=
  if config.stripPrefix then trimPrefix path config.path else path

/-- `path.Join` -/
def pathJoin (base rest : Text) : Text :=
  if base = [] ∧ rest = [] then [] else (Path.join base rest).text

/-- The path of the target with that of the request -/
def upstreamPath (config : RouteConfig) (base path : Text) : Text :=
  pathJoin base (proxyPath config path)

/-- The path that is sent upstream for the path of a request as it was received, if it can be
decoded -/
def forward (config : RouteConfig) (base received : Text) : Option Text :=
  (unescape received).map (upstreamPath config base)

/-- **The path that is sent is that of the target or begins with it and a slash**, also after dot
segments are removed, exactly if what is joined to it returns from wherever it climbs to. -/
theorem confined_iff {config : RouteConfig} {base received path sent : Text}
    (hroot : base.head? = some '/') (hbase : (Path.clean base).elems ≠ [])
    (hpath : unescape received = some path) (hsent : forward config base received = some sent) :
    ((Path.clean sent).text = (Path.clean base).text ∨
      (Path.clean base).text ++ ['/'] <+: (Path.clean sent).text) ↔
    Path.Returns (Path.clean base).elems (Path.relative (proxyPath config path)) := by
  rw [forward, hpath, Option.map_some, Option.some.injEq] at hsent
  have hne : base ≠ [] := by
    rintro rfl
    cases hroot
  rw [← hsent, upstreamPath, pathJoin, if_neg fun h => hne h.1,
    Path.clean_text (Path.reduced_join base _)]
  exact Path.text_join_iff hroot hbase

/-- A route on everything below `/files` -/
def filesRoute : RouteConfig where
  path := "/files/*path"
  method := "GET"
  service := "files"
  targets := ["http://host/public"]

/-- Steps up, encoded ones among them, that lead back -/
theorem confined_iff_back :
    forward filesRoute "/public" "/files//a/%2e%2e/../../public/b" = some "/public/b" ∧
    ((Path.clean "/public/b").text = (Path.clean "/public").text ∨
      (Path.clean "/public").text ++ ['/'] <+: (Path.clean "/public/b").text) := by
  have hsent : forward filesRoute "/public" "/files//a/%2e%2e/../../public/b" =
      some "/public/b" := by decide
  have hpath : unescape "/files//a/%2e%2e/../../public/b" =
      some "/files//a/../../../public/b" := by decide
  exact ⟨hsent, (confined_iff rfl (by decide) hpath hsent).2 (by decide)⟩

/-- Steps up lead out of the path of the target, whether they are encoded or not. -/
theorem climbs_out :
    (Path.clean "/public").elems ≠ [] ∧
    forward filesRoute "/public" "/files/../../admin" = some "/admin" ∧
    forward filesRoute "/public" "/files/%2e%2e/%2E./admin" = some "/admin" ∧
    (Path.clean "/admin").text ≠ (Path.clean "/public").text ∧
    ¬(Path.clean "/public").text ++ ['/'] <+: (Path.clean "/admin").text := by
  decide

/-! ### Prefixes of routes -/

/-- A pattern: a literal prefix, and perhaps a wildcard, `*` and its name -/
structure Pattern where
  literal : Text
  wildcard : Option Text
  literal_plain : '*' ∉ literal ∧ ':' ∉ literal
  name_plain : ∀ name ∈ wildcard, '/' ∉ name

namespace Pattern

variable (pattern : Pattern)

def text : Text :=
  match pattern.wildcard with
  | none => pattern.literal
  | some name => pattern.literal ++ "/*" ++ name

/-- The route matches the literal prefix with `rest`, which a wildcard takes from a slash on. -/
structure Matches (path rest : Text) : Prop where
  path_eq : path = pattern.literal ++ rest
  exact_of_none : pattern.wildcard = none → rest = []
  slash_of_some : pattern.wildcard ≠ none → rest.head? = some '/'

variable {pattern}

/-- A literal pattern is installed as it is. -/
theorem normalize_literal (h : pattern.wildcard = none) {p : Text}
    (hp : p.trimSpace = pattern.text) : normalizeGinRoutePath p = pattern.literal := by
  have htext : pattern.text = pattern.literal := by rw [text, h]
  have hsuffix : ("/*" : Text).isSuffixOf pattern.literal = false := by
    rw [Bool.eq_false_iff, ne_eq, List.isSuffixOf_iff_suffix]
    exact fun hs => pattern.literal_plain.1 (hs.subset (by decide))
  rw [normalizeGinRoutePath, hp, htext, hsuffix]
  simp

/-- A wildcard has a name when it is installed. -/
theorem normalize_wildcard {name : Text} (h : pattern.wildcard = some name) {p : Text}
    (hp : p.trimSpace = pattern.text) : ∃ name', '/' ∉ name' ∧
      normalizeGinRoutePath p = pattern.literal ++ '/' :: '*' :: name' := by
  have htext : pattern.text = pattern.literal ++ '/' :: '*' :: name := by simp [text, h]
  have hname := pattern.name_plain name h
  rw [normalizeGinRoutePath, hp, htext, if_neg (by simp)]
  split_ifs
  · exact ⟨name ++ "path", by simpa using hname, by simp⟩
  · exact ⟨name, hname, rfl⟩

end Pattern

theorem proxyPath_newRoute {config : RouteConfig} (h : config.stripPrefix = true) (path : Text) :
    proxyPath (State.newRoute config).2.config path =
      trimPrefix path (normalizeGinRoutePath config.path) := if_pos h

/-- A clean path is joined to nothing as it is. -/
theorem pathJoin_nil {p : Path} (h : Path.Tidy p.rooted p.elems) : pathJoin [] p.text = p.text := by
  rw [pathJoin, if_neg fun hnil => Path.text_ne_nil h.reduced hnil.2, Path.join, if_pos rfl,
    Path.clean_text h.reduced]

/-- With a wildcard, the text of the pattern is what is taken away. -/
theorem exists_strips_wildcard {config : RouteConfig} {pattern : Pattern}
    (hpattern : config.path.trimSpace = pattern.text) (hstrip : config.stripPrefix = true)
    {name : Text} (hname : pattern.wildcard = some name) :
    ∃ path rest, pattern.Matches path rest ∧
      upstreamPath (State.newRoute config).2.config [] path ≠ pathJoin [] rest := by
  obtain ⟨name', hplain, hroute⟩ := Pattern.normalize_wildcard hname hpattern
  let p : Path := ⟨true, ['*' :: name', ['x']]⟩
  have hp : Path.Tidy p.rooted p.elems := by
    refine ⟨0, _, rfl, fun _ => rfl, ?_⟩
    simp only [List.forall_mem_cons]
    exact ⟨⟨by simpa using hplain, by simp, by simp, by simp⟩, ⟨by decide, by decide, by decide,
      by decide⟩, by simp⟩
  have htext : p.text = '/' :: '*' :: name' ++ ['/', 'x'] := by simp [p, Path.text]
  refine ⟨pattern.literal ++ p.text, p.text, ⟨rfl, ?_, fun _ => by rw [htext]; rfl⟩, ?_⟩
  · intro hnone
    cases hname.symm.trans hnone
  · have hpath : pattern.literal ++ p.text =
        normalizeGinRoutePath config.path ++ ['/', 'x'] := by rw [hroute, htext, List.append_assoc]
    have htrim : proxyPath (State.newRoute config).2.config (pattern.literal ++ p.text) =
        ['/', 'x'] := by
      rw [proxyPath_newRoute hstrip, hpath]
      simp [trimPrefix]
    rw [upstreamPath, htrim, pathJoin_nil hp, htext]
    simp [show pathJoin [] ['/', 'x'] = ['/', 'x'] by decide]

/-- **What the path of a route leaves of the path of a request**: what it should, for all requests
and targets, exactly if the route has no `StripPrefix` or its pattern has no wildcard.  With a
wildcard the text of the pattern is looked for, and nothing is taken away where the request does not
have that text. -/
theorem upstreamPath_pattern {config : RouteConfig} {pattern : Pattern}
    (hpattern : config.path.trimSpace = pattern.text) :
    let route := (State.newRoute config).2.config
    ((∀ base path rest, pattern.Matches path rest → upstreamPath route base path =
        pathJoin base (if config.stripPrefix then rest else pattern.literal ++ rest)) ↔
      config.stripPrefix = false ∨ pattern.wildcard = none) ∧
    ∀ base path rest, pattern.Matches path rest → config.stripPrefix = true →
      ¬ route.path <+: path →
      upstreamPath route base path = pathJoin base (pattern.literal ++ rest) := by
  intro route
  refine ⟨⟨fun h => ?_, fun hcond base path rest hmatch => ?_⟩,
    fun base path rest hmatch hstrip hkept => ?_⟩
  · cases hstrip : config.stripPrefix with
    | false => exact .inl rfl
    | true =>
      refine .inr (Option.eq_none_iff_forall_not_mem.2 fun name hname => ?_)
      obtain ⟨path, rest, hmatch, hne⟩ := exists_strips_wildcard hpattern hstrip hname
      refine hne ((h [] path rest hmatch).trans ?_)
      rw [if_pos hstrip]
  · cases hstrip : config.stripPrefix with
    | false =>
      have hproxy : proxyPath route path = path :=
        if_neg (show ¬ config.stripPrefix = true by simp [hstrip])
      rw [upstreamPath, hproxy, hmatch.path_eq]
      rfl
    | true =>
      obtain hnot | hnone := hcond
      · cases hnot.symm.trans hstrip
      have hproxy : proxyPath route path = _ := proxyPath_newRoute hstrip path
      rw [upstreamPath, hproxy, Pattern.normalize_literal hnone hpattern, hmatch.path_eq,
        hmatch.exact_of_none hnone, List.append_nil, trimPrefix]
      simp
  · have hproxy : proxyPath route path = trimPrefix path route.path := if_pos hstrip
    rw [upstreamPath, hproxy, trimPrefix, if_neg (by rwa [List.isPrefixOf_iff_prefix]),
      hmatch.path_eq]

/-- The pattern `/api` or `/api/*` -/
def apiPattern (wildcard : Bool) : Pattern where
  literal := "/api"
  wildcard := if wildcard then some "" else none
  literal_plain := by decide
  name_plain := by cases wildcard <;> decide

/-- A route that takes its prefix away -/
def apiRoute (wildcard : Bool) : RouteConfig where
  path := (apiPattern wildcard).text
  method := "GET"
  service := "users"
  stripPrefix := true
  targets := ["http://host/v1"]

/-- Without a wildcard the path of the target is left. -/
theorem upstreamPath_pattern_api :
    upstreamPath (State.newRoute (apiRoute false)).2.config "/v1" "/api" = pathJoin "/v1" "" := by
  have hpattern : (apiRoute false).path.trimSpace = (apiPattern false).text := by decide
  have hmatch : (apiPattern false).Matches "/api" "" := ⟨rfl, fun _ => rfl, fun h => absurd rfl h⟩
  exact (upstreamPath_pattern hpattern).1.2 (.inr rfl) "/v1" "/api" "" hmatch

/-- **The prefix is kept**: the route on `/api/*` matches `/api/users`, and does not take `/api`
away. -/
theorem strips_nothing :
    (apiPattern true).Matches "/api/users" "/users" ∧
    upstreamPath (State.newRoute (apiRoute true)).2.config "/v1" "/api/users" = "/v1/api/users" ∧
    pathJoin "/v1" "/users" = "/v1/users" :=
  ⟨⟨rfl, by decide, fun _ => rfl⟩, by decide, by decide⟩

end Gateway

end GinRpc
