import CocaineHttpProxy.Session

namespace CocaineHttpProxy

namespace AppRoute

/-- What `invoke`'s `then` makes of the retry future's answer: a response tagged with
`X-Powered-By` and `X-Cocaine-App`, the error, or nothing yet. -/
def finish (service : String) : Poll (Response × Nat) → Option (Except Error Response)
  | .ok (.ready (resp, _)) =>
    some (.ok ((resp.withHeader .xPoweredBy).withHeader (.xCocaineApp service)))
  | .ok .notReady => none
  | .error err => some (.error err)

variable (codec : Codec) (common : Common) (r : AppRoute) (w : World) (g : Rng)

/-- `invoke`, its retry future (limit 3) polled `fuel` times; `none` while it is pending. -/
def invoke (fuel : Nat) (service event : String) (req : Request) (uri : String) :
    Option (Except Error Response) :=
  match r.traceOf common req g with
  | (.error err, _) => some (.error err)
  | (.ok trace, g) =>
    match req.body with
    | .error text => some (.error (.invalidBodyRead text))
    | .ok body =>
      let inv : Invocation := ⟨service, event, uri, trace, tracingPolicy common req, req, body⟩
      (AppWithSafeRetry.drive (w.schedule codec inv.appRequest) fuel
        (r.start codec w inv 3 g)).bind fun p => finish service p.2

def invokeSpec (service event : String) (req : Request) (uri : String) :
    Option (Except Error Response) :=
  match r.traceOf common req g with
  | (.error err, _) => some (.error err)
  | (.ok trace, _) =>
    match req.body with
    | .error text => some (.error (.invalidBodyRead text))
    | .ok body =>
      let inv : Invocation := ⟨service, event, uri, trace, tracingPolicy common req, req, body⟩
      finish service (AppWithSafeRetry.expected trace (w.outcome codec inv.appRequest) 3).2

def render : Except Error Response → Response
  | .ok resp => resp
  | .error err => err.response

/-- The route's answer to a request: `none` when it does not match, else the response its
future resolves to (`none` inside while the retry future is pending after `fuel` polls). -/
def serve (fuel : Nat) (req : Request) : Option (Option Response) :=
  match process common req with
  | .none _ => none
  | .some (.respond resp) => some (some resp)
  | .some (.invoke service event uri) =>
    some ((r.invoke codec common w g fuel service event req uri).map render)

variable {codec common r w g}

theorem finish_isSome {service : String} {res : Poll (Response × Nat)}
    (h : res ≠ .ok .notReady) : (finish service res).isSome := by
  rcases res with _ | _ | _
  · rfl
  · rfl
  · exact absurd rfl h

theorem invokeSpec_isSome (service event : String) (req : Request) (uri : String) :
    (r.invokeSpec codec common w g service event req uri).isSome := by
  unfold invokeSpec
  rcases r.traceOf common req g with ⟨_ | trace, _⟩
  · rfl
  · cases req.body
    · rfl
    · exact finish_isSome (AppWithSafeRetry.expected_ne_notReady _ _ _)

/-- `invoke` refines the law: polled enough, it resolves to what `invokeSpec` says, and stays. -/
theorem invoke_refines (service event : String) (req : Request) (uri : String) :
    ∃ N, ∀ fuel, N ≤ fuel →
      r.invoke codec common w g fuel service event req uri =
        r.invokeSpec codec common w g service event req uri := by
  unfold invoke invokeSpec
  rcases r.traceOf common req g with ⟨_ | trace, g'⟩
  · exact ⟨0, fun _ _ => rfl⟩
  · cases req.body with
    | error text => exact ⟨0, fun _ _ => rfl⟩
    | ok body =>
      obtain ⟨n, s, h, -⟩ := @exists_run codec r w
        ⟨service, event, uri, trace, tracingPolicy common req, req, body⟩ 3 g' (by decide)
      exact ⟨n, fun fuel hf => by
        dsimp only
        rw [AppWithSafeRetry.drive_of_le h (AppWithSafeRetry.expected_ne_notReady _ _ _) hf]
        rfl⟩

theorem invoke_of_le {fuel fuel' : Nat} {service event uri : String} {req : Request}
    {res : Except Error Response}
    (h : r.invoke codec common w g fuel service event req uri = some res) (hf : fuel ≤ fuel') :
    r.invoke codec common w g fuel' service event req uri = some res := by
  unfold invoke at h ⊢
  generalize r.traceOf common req g = tg at h ⊢
  generalize req.body = b at h ⊢
  rcases tg with ⟨_ | trace, g'⟩
  · exact h
  · cases b with
    | error text => exact h
    | ok body =>
      obtain ⟨⟨s, p⟩, hd, hp⟩ := Option.bind_eq_some.mp h
      have hp' : p ≠ .ok .notReady := by rintro rfl; cases hp
      dsimp only at hd ⊢
      rw [AppWithSafeRetry.drive_of_le hd hp' hf]
      exact hp

theorem invokeSpec_of_invoke {fuel : Nat} {service event uri : String} {req : Request}
    {res : Except Error Response}
    (h : r.invoke codec common w g fuel service event req uri = some res) :
    r.invokeSpec codec common w g service event req uri = some res := by
  obtain ⟨N, hN⟩ := @invoke_refines codec common r w g service event req uri
  rw [← hN (max fuel N) (le_max_right _ _)]
  exact invoke_of_le h (le_max_left _ _)

theorem invoke_eq_some {fuel : Nat} {service event uri : String} {req : Request}
    {res : Except Error Response}
    (h : r.invoke codec common w g fuel service event req uri = some res) :
    (∃ err, res = .error err) ∨
    ∃ (inv : Invocation) (g' : Rng) (s : AppWithSafeRetry) (resp : Response) (size : Nat),
      inv.request = req ∧ (r.traceOf common req g).1 = .ok inv.trace ∧
      AppWithSafeRetry.drive (w.schedule codec inv.appRequest) fuel (r.start codec w inv 3 g') =
        some (s, .ok (.ready (resp, size))) ∧
      res = .ok ((resp.withHeader .xPoweredBy).withHeader (.xCocaineApp service)) := by
  unfold invoke at h
  generalize r.traceOf common req g = tg at h ⊢
  generalize req.body = b at h
  rcases tg with ⟨_ | trace, g'⟩
  · cases h
    exact .inl ⟨_, rfl⟩
  cases b with
  | error text =>
    cases h
    exact .inl ⟨_, rfl⟩
  | ok body =>
    obtain ⟨⟨s, p⟩, hd, hf⟩ := Option.bind_eq_some.mp h
    rcases p with err | ⟨resp, size⟩ | _ <;> cases hf
    · exact .inl ⟨err, rfl⟩
    · exact .inr ⟨_, g', s, resp, size, rfl, rfl, hd, rfl⟩

/-- The route hands back exactly the requests `extract_parameters` does not match. It answers any
other, once polled enough, with one response: the law's `Ok`, or an error rendered. -/
theorem serve_resolves (req : Request) :
    (∀ fuel, r.serve codec common w g fuel req = none ↔ extractParameters common req = none) ∧
    (extractParameters common req ≠ none → ∃ N resp, ∀ fuel, N ≤ fuel →
      r.serve codec common w g fuel req = some (some resp) ∧
      match extractParameters common req with
      | some (.ok (service, event, uri)) =>
        r.invokeSpec codec common w g service event req uri = some (.ok resp) ∨
        ∃ err, r.invokeSpec codec common w g service event req uri = some (.error err) ∧
          resp = (Response.new.withStatus err.code).withBody (utf8 err.toString)
      | some (.error err) => resp = (Response.new.withStatus err.code).withBody (utf8 err.toString)
      | none => False) := by
  refine ⟨fun fuel => ?_, fun hx => ?_⟩
  · have h : r.serve codec common w g fuel req = none ↔ (process common req).isNone := by
      unfold serve
      split <;> simp_all [Match.isNone]
    rw [h, process_isNone, Option.isNone_iff_eq_none]
  · unfold serve process
    rcases he : extractParameters common req with _ | err | ⟨service, event, uri⟩
    · exact absurd he hx
    · exact ⟨0, err.response, fun _ _ => ⟨rfl, rfl⟩⟩
    · obtain ⟨N, hN⟩ := @invoke_refines codec common r w g service event req uri
      obtain ⟨res, hres⟩ :=
        Option.isSome_iff_exists.mp (@invokeSpec_isSome codec common r w g service event req uri)
      refine ⟨N, render res, fun fuel hf => ⟨by simp only [hN fuel hf, hres, Option.map_some'], ?_⟩⟩
      cases res with
      | ok resp => exact .inl hres
      | error err => exact .inr ⟨err, hres, rfl⟩

theorem serve_eventually {req : Request} {service event uri : String} {res : Except Error Response}
    (hp : process common req = .some (.invoke service event uri))
    (hs : r.invokeSpec codec common w g service event req uri = some res) :
    ∃ N, r.serve codec common w g N req = some (some (render res)) := by
  obtain ⟨N, hN⟩ := @invoke_refines codec common r w g service event req uri
  exact ⟨N, by simp only [serve, hp, hN N le_rfl, hs, Option.map_some']⟩

theorem serve_eq_relay {req : Request} {service event uri : String} {trace : UInt64}
    {body : Bytes} {k : Nat} {data : Bytes} {m : ResponseMeta} {chunks : List Bytes}
    (hp : process common req = .some (.invoke service event uri))
    (ht : (r.traceOf common req g).1 = .ok trace) (hb : req.body = .ok body) (hk : k < 3)
    (hq : ∀ i < k, (w.attempt i).invoked ∧
      ∃ t rest, (w.attempt i).delivery.frames = .error (.service 0x52ff 1 t) :: rest)
    (hw : (w.attempt k).invoked)
    (hd : (w.attempt k).delivery.frames = .write data :: chunks.map .write ++ [.close])
    (hm : codec.fromSlice data = .ok m) :
    ∃ N, ∀ fuel, N ≤ fuel → r.serve codec common w g fuel req =
      some (some (((AppReadDispatch.closeReply codec req.method
        (AppReadDispatch.applyMeta trace m Response.new) chunks.flatten).1.withHeader
          .xPoweredBy).withHeader (.xCocaineApp service))) := by
  obtain ⟨N, hN⟩ := @invoke_refines codec common r w g service event req uri
  refine ⟨N, fun fuel hf => ?_⟩
  simp only [serve, hp, hN fuel hf, invokeSpec]
  rcases htg : r.traceOf common req g with ⟨_ | tr, g'⟩ <;> rw [htg] at ht <;> cases ht
  simp only [hb, World.expected_relay hk hq hw hd hm]
  rfl

theorem headers_closeReply (method : Method) (resp : Response) (body : Bytes) :
    (AppReadDispatch.closeReply codec method resp body).1.headers = resp.headers := by
  rw [AppReadDispatch.closeReply_eq]
  split <;> rfl

theorem contentLength_tagged (resp : Response) (service : String) :
    AppReadDispatch.contentLength codec
        ((resp.withHeader .xPoweredBy).withHeader (.xCocaineApp service)).headers =
      AppReadDispatch.contentLength codec resp.headers := by
  simp only [AppReadDispatch.contentLength, Response.withHeader_headers, Headers.find?_set,
    Typed.headerName]
  rw [if_neg (by decide), if_neg (by decide)]

/-- The route relays the backend: after `k < 3` full queues, attempt `k`'s meta frame, chunks and
`close` give the status, headers and body of the answer, as the statement writes them out. -/
theorem serve_relays {req : Request} {service event uri : String} {trace : UInt64}
    {body : Bytes} {k : Nat} {data : Bytes} {m : ResponseMeta} {chunks : List Bytes}
    (hp : process common req = .some (.invoke service event uri))
    (ht : (r.traceOf common req g).1 = .ok trace) (hb : req.body = .ok body) (hk : k < 3)
    (hq : ∀ i < k, (w.attempt i).invoked ∧
      ∃ t rest, (w.attempt i).delivery.frames = .error (.service 0x52ff 1 t) :: rest)
    (hw : (w.attempt k).invoked)
    (hd : (w.attempt k).delivery.frames = .write data :: chunks.map .write ++ [.close])
    (hm : codec.fromSlice data = .ok m) :
    ∃ N resp, ∀ fuel, N ≤ fuel → r.serve codec common w g fuel req = some (some resp) ∧
      resp.status = (if 100 ≤ m.code.toNat % 65536 ∧ m.code.toNat % 65536 ≤ 599
        then ⟨m.code.toNat % 65536⟩ else .internalServerError) ∧
      (∀ name, resp.headers.find? name =
        if headerKey name = headerKey "X-Cocaine-App" then some (.typed (.xCocaineApp service))
        else if headerKey name = headerKey "X-Powered-By" then some (.typed .xPoweredBy)
        else match m.headers.reverse.find? fun e => headerKey e.1 = headerKey name with
          | some e => some (.raw [utf8 e.2])
          | none =>
            if headerKey name = headerKey "X-Request-Id" then some (.typed (.xRequestId trace))
            else none) ∧
      resp.body = if req.method = .head ∨ resp.status = .noContent ∨
          resp.status = .notModified ∨ chunks.flatten = [] ∨
          AppReadDispatch.contentLength codec resp.headers = some 0
        then none else some chunks.flatten := by
  obtain ⟨N, hN⟩ := serve_eq_relay hp ht hb hk hq hw hd hm
  refine ⟨N, _, fun fuel hf => ⟨hN fuel hf, ?_, fun name => ?_, ?_⟩⟩
  · simp only [Response.withHeader_status, AppReadDispatch.status_closeReply,
      AppReadDispatch.applyMeta_status, AppReadDispatch.metaStatus_eq]
  · simp only [Response.withHeader_headers, Headers.find?_set, Typed.headerName, headers_closeReply,
      AppReadDispatch.applyMeta, AppReadDispatch.find?_setRawAll, Response.withStatus_headers,
      Response.new_headers, Headers.find?_empty] <;> rfl
  · simp only [contentLength_tagged, Response.withHeader_status, Response.withHeader_body,
      AppReadDispatch.status_closeReply, headers_closeReply]
    rw [AppReadDispatch.closeReply_eq]
    split_ifs with h1 h2 h2
    · simp
    · exact absurd h1 h2
    · exact absurd h2 h1
    · rfl

theorem serve_relays_retry :
    ∃ N resp, ∀ fuel, N ≤ fuel → AppRoute.new.serve Msgpack.codec ⟨fun _ => none, fun _ => none,
        fun _ => none, fun _ => none⟩ (World.retrying fun _ => ⟨none, false⟩)
        ⟨fun n => n.toUInt64, 0⟩ fuel ⟨.get, "/echo/say/hello?x=1", .http11, .empty, .ok []⟩ =
        some (some resp) ∧
      resp.status = (if 100 ≤ (200 : UInt32).toNat % 65536 ∧ (200 : UInt32).toNat % 65536 ≤ 599
        then ⟨(200 : UInt32).toNat % 65536⟩ else .internalServerError) ∧
      (∀ name, resp.headers.find? name =
        if headerKey name = headerKey "X-Cocaine-App" then some (.typed (.xCocaineApp "echo"))
        else if headerKey name = headerKey "X-Powered-By" then some (.typed .xPoweredBy)
        else match ([] : List (String × String)).reverse.find?
            fun e => headerKey e.1 = headerKey name with
          | some e => some (.raw [utf8 e.2])
          | none =>
            if headerKey name = headerKey "X-Request-Id" then some (.typed (.xRequestId 0))
            else none) ∧
      resp.body = if Method.get = .head ∨ resp.status = .noContent ∨
          resp.status = .notModified ∨ [utf8 "hi"].flatten = [] ∨
          AppReadDispatch.contentLength Msgpack.codec resp.headers = some 0
        then none else some [utf8 "hi"].flatten :=
  serve_relays (k := 1) (m := ⟨200, []⟩) rfl rfl rfl (by decide) (fun i hi => by
    obtain rfl : i = 0 := by omega
    exact ⟨rfl, _, _, rfl⟩) rfl rfl rfl

theorem valid_response (err : Error) : err.response.status.Valid := by
  show err.code.Valid
  cases err <;> simp only [Error.code] <;> decide

theorem serve_eq_some {fuel : Nat} {req : Request} {resp : Response}
    (h : r.serve codec common w g fuel req = some (some resp)) :
    (∃ err : Error, resp = err.response) ∨
    ∃ (service : String) (inv : Invocation) (g' : Rng) (s : AppWithSafeRetry) (resp' : Response)
      (size : Nat), inv.request = req ∧
      AppWithSafeRetry.drive (w.schedule codec inv.appRequest) fuel (r.start codec w inv 3 g') =
        some (s, .ok (.ready (resp', size))) ∧
      resp = (resp'.withHeader .xPoweredBy).withHeader (.xCocaineApp service) := by
  unfold serve at h
  split at h
  · cases h
  · rename_i hp
    cases h
    unfold process at hp
    split at hp <;> cases hp
    exact .inl ⟨_, rfl⟩
  · obtain ⟨res, hres, rfl⟩ := Option.map_eq_some'.mp (Option.some.inj h)
    rcases invoke_eq_some hres with ⟨err, rfl⟩ | ⟨inv, g', s, resp', size, hq, -, hd, rfl⟩
    exacts [.inl ⟨err, rfl⟩, .inr ⟨_, inv, g', s, resp', size, hq, hd, rfl⟩]

theorem serve_valid (fuel : Nat) (req : Request) :
    ∀ resp, r.serve codec common w g fuel req = some (some resp) → resp.status.Valid := by
  intro resp h
  rcases serve_eq_some h with ⟨err, rfl⟩ | ⟨_, _, _, _, resp', size, -, hd, rfl⟩
  · exact valid_response err
  · exact (wellFormed_of_run (by decide) hd).valid

theorem serve_valid_echo :
    ∃ fuel resp, AppRoute.new.serve Msgpack.codec ⟨fun _ => none, fun _ => none, fun _ => none,
        fun _ => none⟩ (World.ofFrames (fun _ => [.write (Msgpack.encode ⟨65736, []⟩), .close])
          fun _ => false) ⟨fun n => n.toUInt64, 0⟩ fuel
        ⟨.get, "/echo/say/hello?x=1", .http11, .empty, .ok []⟩ = some (some resp) ∧
      resp.status.Valid := by
  obtain ⟨N, h⟩ := @serve_eventually Msgpack.codec ⟨fun _ => none, fun _ => none, fun _ => none,
    fun _ => none⟩ AppRoute.new
    (World.ofFrames (fun _ => [.write (Msgpack.encode ⟨65736, []⟩), .close]) fun _ => false)
    ⟨fun n => n.toUInt64, 0⟩ ⟨.get, "/echo/say/hello?x=1", .http11, .empty, .ok []⟩
    "echo" "say" "/hello?x=1" _ rfl rfl
  exact ⟨N, _, h, serve_valid N _ _ h⟩

theorem serve_headers (fuel : Nat) (req : Request) :
    ∀ resp, r.serve codec common w g fuel req = some (some resp) →
      ∀ e ∈ resp.headers.entries, w.HeaderFrom codec 3 e := by
  intro resp h
  rcases serve_eq_some h with ⟨err, rfl⟩ | ⟨_, _, _, _, resp', size, -, hd, rfl⟩
  · exact fun _ he => nomatch he
  · intro e he
    rcases mem_insertEntry he with rfl | he
    · exact World.headerFrom_typed _ fun _ => nofun
    rcases mem_insertEntry he with rfl | he
    · exact World.headerFrom_typed _ fun _ => nofun
    exact headers_of_run (by decide) hd e he

theorem serve_headers_gateway :
    ∃ fuel resp, AppRoute.new.serve Msgpack.codec ⟨fun _ => none, fun _ => none, fun _ => none,
        fun _ => none⟩ (World.ofFrames (fun i => if i = 0 then
          [.error (.service 0x52ff 1 "queue is full")] else
          [.error (.service 0x54ff 3 "no route")]) fun _ => false) ⟨fun n => n.toUInt64, 0⟩ fuel
        ⟨.get, "/echo/say/hello?x=1", .http11, .empty, .ok []⟩ = some (some resp) ∧
      ∀ e ∈ resp.headers.entries, (World.ofFrames (fun i => if i = 0 then
          [.error (.service 0x52ff 1 "queue is full")] else
          [.error (.service 0x54ff 3 "no route")]) fun _ => false).HeaderFrom Msgpack.codec 3 e := by
  obtain ⟨N, h⟩ := @serve_eventually Msgpack.codec ⟨fun _ => none, fun _ => none, fun _ => none,
    fun _ => none⟩ AppRoute.new (World.ofFrames (fun i => if i = 0 then
      [.error (.service 0x52ff 1 "queue is full")] else
      [.error (.service 0x54ff 3 "no route")]) fun _ => false)
    ⟨fun n => n.toUInt64, 0⟩ ⟨.get, "/echo/say/hello?x=1", .http11, .empty, .ok []⟩
    "echo" "say" "/hello?x=1" _ rfl rfl
  exact ⟨N, _, h, serve_headers N _ _ h⟩

theorem invoke_zero_eq_some {service event uri : String} {req : Request}
    {res : Except Error Response} :
    r.invoke codec common w g 0 service event req uri = some res ↔
      ((∃ raw, req.headers.getRaw r.tracingHeader = some raw ∧ common.requestId raw = none) ∧
        res = .error (.invalidRequestIdHeader r.tracingHeader)) ∨
      ((∀ raw, req.headers.getRaw r.tracingHeader = some raw → common.requestId raw ≠ none) ∧
        ∃ text, req.body = .error text ∧ res = .error (.invalidBodyRead text)) := by
  unfold invoke traceOf
  rcases hr : req.headers.getRaw r.tracingHeader with _ | raw
  · rcases hb : req.body with text | body <;>
      simp [AppWithSafeRetry.drive, finish, eq_comm]
  · rcases hv : common.requestId raw with _ | v
    · simp [hv, eq_comm]
    · rcases hb : req.body with text | body <;>
        simp [hv, AppWithSafeRetry.drive, finish, eq_comm]

theorem invoke_zero {service event uri : String} {req : Request} {res : Except Error Response}
    (h : r.invoke codec common w g 0 service event req uri = some res) :
    ∀ (w' : World) (g' : Rng) fuel,
      r.invoke codec common w' g' fuel service event req uri = some res := fun _ _ fuel =>
  invoke_of_le (invoke_zero_eq_some.mpr (invoke_zero_eq_some.mp h)) (Nat.zero_le fuel)

/-- A request is answered before any poll exactly when it fails before its retry future exists;
the answer is that error rendered, whatever the backend, the draws and the polls. -/
theorem serve_rejected (req : Request) (resp : Response) :
    (r.serve codec common w g 0 req = some (some resp) ↔
      (((req.headers.getRaw "X-Cocaine-Service").bind common.cocaineService).isSome ≠
          ((req.headers.getRaw "X-Cocaine-Event").bind common.cocaineEvent).isSome ∧
        resp = (Response.new.withStatus ⟨400⟩).withBody (utf8
          "either none or both `X-Cocaine-Service` and `X-Cocaine-Event` headers must be specified")) ∨
      ((∃ service event uri, extractParameters common req = some (.ok (service, event, uri))) ∧
        (∃ raw, req.headers.getRaw r.tracingHeader = some raw ∧ common.requestId raw = none) ∧
        resp = (Response.new.withStatus ⟨400⟩).withBody
          (utf8 ("Invalid `" ++ r.tracingHeader ++ "` header value"))) ∨
      ((∃ service event uri, extractParameters common req = some (.ok (service, event, uri))) ∧
        (∀ raw, req.headers.getRaw r.tracingHeader = some raw → common.requestId raw ≠ none) ∧
        ∃ text, req.body = .error text ∧
          resp = (Response.new.withStatus ⟨500⟩).withBody (utf8 text))) ∧
    (r.serve codec common w g 0 req = some (some resp) →
      ∀ (w' : World) (g' : Rng) fuel, r.serve codec common w' g' fuel req = some (some resp)) := by
  have hne := @extractParameters_error_iff common req
  unfold serve process
  rcases hx : extractParameters common req with _ | err | ⟨service, event, uri⟩
  · simp only [hx, reduceCtorEq, exists_false, false_and, or_false, false_iff, exists_const]
    exact ⟨fun h => by simpa [hx] using hne.mpr h.1, fun h => nomatch h⟩
  · obtain rfl := extractParameters_error hx
    have hs := hne.mp ⟨_, hx⟩
    simp only [hx, Option.some.injEq, reduceCtorEq, exists_false, false_and, or_false]
    exact ⟨⟨fun h => ⟨hs, h.symm⟩, fun h => h.2.symm⟩, fun h _ _ _ => h⟩
  · have hs : ¬ (((req.headers.getRaw "X-Cocaine-Service").bind common.cocaineService).isSome ≠
        ((req.headers.getRaw "X-Cocaine-Event").bind common.cocaineEvent).isSome) :=
      fun h => by simpa [hx] using hne.mpr h
    refine ⟨?_, fun h w' g' fuel => ?_⟩
    · simp only [hs, false_and, false_or, Option.some.injEq, Option.map_eq_some',
        invoke_zero_eq_some]
      constructor
      · rintro ⟨res, ⟨hr, rfl⟩ | ⟨hr, text, hb, rfl⟩, rfl⟩
        exacts [.inl ⟨⟨_, _, _, rfl⟩, hr, rfl⟩, .inr ⟨⟨_, _, _, rfl⟩, hr, text, hb, rfl⟩]
      · rintro (⟨-, hr, rfl⟩ | ⟨-, hr, text, hb, rfl⟩)
        exacts [⟨_, .inl ⟨hr, rfl⟩, rfl⟩, ⟨_, .inr ⟨hr, text, hb, rfl⟩, rfl⟩]
    · obtain ⟨res, hres, hr⟩ := Option.map_eq_some'.mp (Option.some.inj h)
      simp only [invoke_zero hres w' g' fuel, Option.map_some', hr]

end AppRoute

end CocaineHttpProxy
