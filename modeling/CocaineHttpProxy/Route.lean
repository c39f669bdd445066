import CocaineHttpProxy.Protocol
import CocaineHttpProxy.Regex

namespace CocaineHttpProxy

/-- Modelled from the spec: the typed headers of `crate::common` that the route reads, by
their parse of a header's raw lines. Every result holds for all of them. -/
structure Common where
  cocaineService : List Bytes → Option String
  cocaineEvent : List Bytes → Option String
  requestId : List Bytes → Option UInt64
  tracingPolicy : List Bytes → Option TracingPolicy

/-- `AppRoute`; `headers` is the mapping in the order its `HashMap` iterates, and the regex is
always `uriPattern`. The pool channel and the logger are not modelled here. -/
structure AppRoute where
  headers : List (String × String)
  tracingHeader : String

namespace AppRoute

def new : AppRoute := ⟨[], "X-Request-Id"⟩

def withTracingHeader (r : AppRoute) (header : String) : AppRoute := { r with tracingHeader := header }

def withHeadersMapping (r : AppRoute) (headers : List (String × String)) : AppRoute :=
  { r with headers }

def normalizeUri (other : List Char) : String :=
  if other.head? = some '/' then String.mk other else String.mk ('/' :: other)

def extractParameters (common : Common) (req : Request) :
    Option (Except Error (String × String × String)) :=
  let service := (req.headers.getRaw "X-Cocaine-Service").bind common.cocaineService
  let event := (req.headers.getRaw "X-Cocaine-Event").bind common.cocaineEvent
  match service, event with
  | some service, some event => some (.ok (service, event, req.uri))
  | some _, none | none, some _ => some (.error .incompleteHeadersMatch)
  | none, none =>
    (uriPattern.captures req.uri.data).bind fun cap =>
      match Regex.get cap 1, Regex.get cap 2, Regex.get cap 3 with
      | some service, some event, some other =>
        some (.ok (String.mk service, String.mk event, normalizeUri other))
      | _, _, _ => none

/-- `map_headers`: each configured header present in the request, under its backend name,
its lines joined. -/
def mapHeaders (r : AppRoute) (hs : Headers) : List RawHeader :=
  r.headers.filterMap fun h => (hs.getRaw h.1).map fun v => ⟨utf8 h.2, v.flatten⟩

/-- The trace `invoke` sends: the tracing header parsed, or a fresh draw without one. -/
def traceOf (r : AppRoute) (common : Common) (req : Request) (g : Rng) : Except Error UInt64 × Rng :=
  match req.headers.getRaw r.tracingHeader with
  | some raw =>
    match common.requestId raw with
    | some v => (.ok v, g)
    | none => (.error (.invalidRequestIdHeader r.tracingHeader), g)
  | none => let p := g.random; (.ok p.1, p.2)

def tracingPolicy (common : Common) (req : Request) : TracingPolicy :=
  ((req.headers.getRaw "X-Tracing-Policy").bind common.tracingPolicy).getD .auto

end AppRoute

inductive Routed
  | invoke (service event uri : String)
  | respond (resp : Response)

inductive Match
  | some (routed : Routed)
  | none (req : Request)

def Match.isNone : Match → Bool
  | .some _ => false
  | .none _ => true

def Error.response (err : Error) : Response :=
  (Response.new.withStatus err.code).withBody (utf8 err.toString)

namespace AppRoute

def process (common : Common) (req : Request) : Match :=
  match extractParameters common req with
  | some (.ok (service, event, uri)) => .some (.invoke service event uri)
  | some (.error err) => .some (.respond err.response)
  | none => .none req

theorem process_isNone (common : Common) (req : Request) :
    (process common req).isNone = (extractParameters common req).isNone := by
  unfold process
  rcases extractParameters common req with _ | _ | ⟨s, e, u⟩ <;> rfl

theorem extractParameters_error {common : Common} {req : Request} {err : Error}
    (h : extractParameters common req = some (.error err)) : err = .incompleteHeadersMatch := by
  simp only [extractParameters] at h
  split at h
  · cases h
  · cases h
    rfl
  · cases h
    rfl
  · obtain ⟨cap, -, h⟩ := Option.bind_eq_some.mp h
    split at h <;> cases h

theorem extractParameters_error_iff {common : Common} {req : Request} :
    (∃ err, extractParameters common req = some (.error err)) ↔
      ((req.headers.getRaw "X-Cocaine-Service").bind common.cocaineService).isSome ≠
        ((req.headers.getRaw "X-Cocaine-Event").bind common.cocaineEvent).isSome := by
  simp only [extractParameters]
  rcases (req.headers.getRaw "X-Cocaine-Service").bind common.cocaineService with _ | s <;>
    rcases (req.headers.getRaw "X-Cocaine-Event").bind common.cocaineEvent with _ | e <;>
    simp only [Option.isSome_none, Option.isSome_some, ne_eq, not_true_eq_false, iff_false,
      iff_true, reduceCtorEq, exists_false, not_false_eq_true, Option.some.injEq, Except.error.injEq,
      exists_eq, exists_eq']
  rintro ⟨err, h⟩
  obtain ⟨cap, -, h⟩ := Option.bind_eq_some.mp h
  split at h <;> cases h

theorem mem_mapHeaders (r : AppRoute) (hs : Headers) (x : RawHeader) :
    x ∈ r.mapHeaders hs ↔
      ∃ h ∈ r.headers, ∃ v, hs.getRaw h.1 = some v ∧ x = ⟨utf8 h.2, v.flatten⟩ := by
  simp only [mapHeaders, List.mem_filterMap, Option.map_eq_some']
  constructor <;> rintro ⟨h, hh, v, hv, rfl⟩ <;> exact ⟨h, hh, v, hv, rfl⟩

/-- An absolute-form target: the unanchored pattern matches from its second `/`, and the host
becomes the event. -/
theorem process_absolute_form (common : Common) :
    process common ⟨.get, "http://host/a/b", .http11, .empty, .ok []⟩ =
      .some (.invoke "" "host" "/a/b") := rfl

/-- The URL scheme parses back: without the two headers, `/service/event` and a tail that is
empty or starts with `/` or `?` is routed there, the tail (with a leading `/`) as the URI. -/
theorem process_path (common : Common) (req : Request)
    (hs : (req.headers.getRaw "X-Cocaine-Service").bind common.cocaineService = none)
    (he : (req.headers.getRaw "X-Cocaine-Event").bind common.cocaineEvent = none)
    {service event tail : List Char} (hsv : '/' ∉ service) (hev : '/' ∉ event ∧ '?' ∉ event)
    (ht : ∀ c ∈ tail.head?, c = '/' ∨ c = '?') (hn : '\n' ∉ tail)
    (hu : req.uri.data = '/' :: (service ++ '/' :: (event ++ tail))) :
    process common req = .some (.invoke (String.mk service) (String.mk event)
      (String.mk (if tail.head? = some '/' then tail else '/' :: tail))) := by
  -- the first group runs to the second `/`
  have hsp : ∀ c ∈ service, (c != '/') = true := fun c hc => bne_iff_ne.mpr fun h => hsv (h ▸ hc)
  have hs₁ : (service ++ '/' :: (event ++ tail)).dropWhile (· != '/') = '/' :: (event ++ tail) := by
    rw [List.dropWhile_append_of_pos hsp]
    rfl
  have hs₂ : (service ++ '/' :: (event ++ tail)).takeWhile (· != '/') = service := by
    rw [List.takeWhile_append_of_pos hsp]
    exact List.append_nil service
  -- the second group runs to the next `/` or `?`, where the tail starts
  have hep : ∀ c ∈ event, (c != '/' && c != '?') = true := fun c hc => by
    simp only [Bool.and_eq_true, bne_iff_ne, ne_eq]
    exact ⟨fun h => hev.1 (h ▸ hc), fun h => hev.2 (h ▸ hc)⟩
  have htail : tail.takeWhile (fun c => c != '/' && c != '?') = [] ∧
      tail.dropWhile (fun c => c != '/' && c != '?') = tail := by
    rcases tail with _ | ⟨c, t⟩
    · exact ⟨rfl, rfl⟩
    · rcases ht c rfl with rfl | rfl <;> exact ⟨rfl, rfl⟩
  have he₁ : (event ++ tail).takeWhile (fun c => c != '/' && c != '?') = event := by
    rw [List.takeWhile_append_of_pos hep, htail.1, List.append_nil]
  have he₂ : (event ++ tail).dropWhile (fun c => c != '/' && c != '?') = tail := by
    rw [List.dropWhile_append_of_pos hep, htail.2]
  -- the third group is all of the tail
  have hnl : tail.takeWhile (· != '\n') = tail :=
    List.takeWhile_eq_self_iff.mpr fun c hc => bne_iff_ne.mpr fun h => hn (h ▸ hc)
  have hx : extractParameters common req =
      some (.ok (String.mk service, String.mk event, normalizeUri tail)) := by
    simp only [extractParameters, hs, he, hu, captures_uriPattern_slash, uriMatch, hs₁, hs₂, he₁,
      he₂, hnl]
    rfl
  simp only [process, hx, normalizeUri]
  split <;> rfl

theorem process_path_query :
    '/' ∉ "echo".data ∧ ('/' ∉ "say".data ∧ '?' ∉ "say".data) ∧ '\n' ∉ "?x=1".data ∧
    process ⟨fun _ => none, fun _ => none, fun _ => none, fun _ => none⟩
        ⟨.get, "/echo/say?x=1", .http11, .empty, .ok []⟩ =
      .some (.invoke (String.mk "echo".data) (String.mk "say".data)
        (String.mk (if "?x=1".data.head? = some '/' then "?x=1".data else '/' :: "?x=1".data))) :=
  ⟨by decide, by decide, by decide, process_path ⟨fun _ => none, fun _ => none, fun _ => none,
    fun _ => none⟩ ⟨.get, "/echo/say?x=1", .http11, .empty, .ok []⟩ rfl rfl (by decide) (by decide)
    (fun _ hc => by cases hc; exact .inr rfl) (by decide) rfl⟩

end AppRoute

end CocaineHttpProxy
