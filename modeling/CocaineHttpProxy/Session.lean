import CocaineHttpProxy.Retry
import CocaineHttpProxy.Route

namespace CocaineHttpProxy

/-- What the pool and the backend do with one attempt: whether its closure runs, its settings,
whether `service.call` resolves, the frames sent, and the `NotReady` polls before the reply. -/
structure AttemptWorld where
  invoked : Bool
  settings : Settings
  opened : Bool
  delivery : Delivery
  delay : Nat

/-- Everything outside the route a request's run depends on, by attempt, with the draws of
`make_future`. -/
structure World where
  attempt : Nat → AttemptWorld
  sample : Nat → Float

namespace World

def outcome (codec : Codec) (w : World) (req : AppRequest) (i : Nat) : Except Error Reply :=
  if (w.attempt i).invoked then (w.attempt i).delivery.outcome codec req else .error .canceled

def schedule (codec : Codec) (w : World) (req : AppRequest) : Schedule :=
  ⟨fun i => (w.attempt i).delay, w.outcome codec req, w.sample⟩

def ofFrames (frames : Nat → List Frame) (verbose : Nat → Bool) : World :=
  ⟨fun i => ⟨true, ⟨none, verbose i⟩, true, ⟨frames i, none⟩, 0⟩, fun _ => 0⟩

theorem outcome_eq_ok_none {codec : Codec} {w : World} {req : AppRequest} {i : Nat} :
    w.outcome codec req i = .ok none ↔
      (w.attempt i).invoked ∧ AppReadDispatch.Retried codec (w.attempt i).delivery.frames := by
  unfold outcome
  split <;> simp_all [Delivery.outcome_eq_ok_none]

/-- Attempt `k` answers a run of at most `limit` attempts: the pool ran it and every attempt
before it, all of which met the queue-full error, and attempt `k` did not. -/
def Answers (codec : Codec) (w : World) (limit k : Nat) : Prop :=
  k < limit ∧
    (∀ j < k, (w.attempt j).invoked ∧ AppReadDispatch.Retried codec (w.attempt j).delivery.frames) ∧
    (w.attempt k).invoked ∧ ¬ AppReadDispatch.Retried codec (w.attempt k).delivery.frames

end World

/-- The closure of `ev`, run with `settings` while the latch reads `verbose`: the latch after it,
and the open it sends, then the payload and the close once `service.call` resolved (`opened`). -/
def Event.func (serialize : RequestMeta → Bytes) (ev : Event) (verbose : Bool)
    (settings : Settings) (opened : Bool) : Bool × List Call :=
  let settingsVerbose := decide (ev.manualVerbose = some true) || settings.verbose
  let verbose := verbose || (settingsVerbose && ev.attempt == 1)
  let headers := ev.headers ++ (if verbose then [.traceBit true] else []) ++
    (match settings.timeout with
      | some t => [⟨utf8 "request_timeout", packU64 (t * 1000).toUInt64⟩]
      | none => [])
  (verbose, ⟨0, [utf8 ev.request.event], headers⟩ ::
    if opened then [⟨0, [serialize ev.request.frame], []⟩, ⟨2, [], []⟩] else [])

namespace World

variable (serialize : RequestMeta → Bytes) (w : World) (evs : List Event)

/-- The latch once the pool has run, in order, the closures of the first `i` posted events. -/
def latch : Nat → Bool
  | 0 => false
  | i + 1 =>
    match evs[i]? with
    | some ev =>
      if (w.attempt i).invoked then
        (ev.func serialize (latch i) (w.attempt i).settings (w.attempt i).opened).1
      else latch i
    | none => latch i

def calls (i : Nat) : List Call :=
  match evs[i]? with
  | some ev =>
    if (w.attempt i).invoked then
      (ev.func serialize (w.latch serialize evs i) (w.attempt i).settings (w.attempt i).opened).2
    else []
  | none => []

end World

structure Invocation where
  service : String
  event : String
  uri : String
  trace : UInt64
  tracingPolicy : TracingPolicy
  request : Request
  body : Bytes

namespace Invocation

def appRequest (inv : Invocation) : AppRequest :=
  (AppRequest.new inv.service inv.event inv.trace inv.request inv.uri).setBody inv.body

@[simp] theorem appRequest_event (inv : Invocation) : inv.appRequest.event = inv.event := rfl

@[simp] theorem appRequest_trace (inv : Invocation) : inv.appRequest.trace = inv.trace := rfl

@[simp] theorem appRequest_frame (inv : Invocation) : inv.appRequest.frame =
    ⟨inv.request.method, inv.uri, inv.request.version, frameHeaders inv.request.headers, inv.body⟩ :=
  rfl

end Invocation

namespace AppRoute

/-- The retry future `invoke` creates (with `limit` 3 there) against the world. -/
def start (codec : Codec) (r : AppRoute) (w : World) (inv : Invocation) (limit : UInt32)
    (g : Rng) : AppWithSafeRetry :=
  (AppWithSafeRetry.new (w.schedule codec inv.appRequest) inv.appRequest
    (r.mapHeaders inv.request.headers) limit inv.tracingPolicy g).1

variable {codec : Codec} {r : AppRoute} {w : World} {inv : Invocation} {limit : UInt32} {g : Rng}

@[simp] theorem start_request : (r.start codec w inv limit g).request = inv.appRequest := rfl

@[simp] theorem start_tracingPolicy :
    (r.start codec w inv limit g).tracingPolicy = inv.tracingPolicy := rfl

@[simp] theorem start_headers : (r.start codec w inv limit g).headers =
    r.mapHeaders inv.request.headers ++
      [.traceId inv.trace, .spanId (g.draw g.pos), .parentId inv.trace] := by
  simp only [start, AppWithSafeRetry.new, AppWithSafeRetry.makeFuture,
    AppWithSafeRetry.makeHeaders, Rng.random]
  cases r.mapHeaders inv.request.headers <;> rfl

theorem reach_of_run (hl : 1 ≤ limit) {n : Nat} {s : AppWithSafeRetry}
    {res : Poll (Response × Nat)}
    (h : AppWithSafeRetry.drive (w.schedule codec inv.appRequest) n (r.start codec w inv limit g) =
      some (s, res)) :
    AppWithSafeRetry.Reach (w.schedule codec inv.appRequest) (r.start codec w inv limit g) s :=
  AppWithSafeRetry.reach_of_drive (AppWithSafeRetry.reach_new hl)
    (AppWithSafeRetry.pending_new hl) h

end AppRoute

namespace AppWithSafeRetry

theorem Reach.getElem?_sent {sch : Schedule} {s₀ s : AppWithSafeRetry} (h : Reach sch s₀ s)
    {i : Nat} (hi : i < s.sent.length) : s.sent[i]? = some (eventAt sch s₀ i) := by
  rw [h.sent]
  simp [hi]

end AppWithSafeRetry

namespace World

variable {serialize : RequestMeta → Bytes} {w : World} {evs : List Event}

theorem latch_succ {i : Nat} {ev : Event} (he : evs[i]? = some ev) (hi : (w.attempt i).invoked) :
    w.latch serialize evs (i + 1) = (ev.func serialize (w.latch serialize evs i)
      (w.attempt i).settings (w.attempt i).opened).1 := by
  simp [latch, he, hi]

theorem calls_eq {i : Nat} {ev : Event} (he : evs[i]? = some ev) (hi : (w.attempt i).invoked) :
    w.calls serialize evs i =
      ⟨0, [utf8 ev.request.event], ev.headers ++
          (if w.latch serialize evs (i + 1) then [.traceBit true] else []) ++
          (match (w.attempt i).settings.timeout with
            | some t => [⟨utf8 "request_timeout", packU64 (t * 1000).toUInt64⟩]
            | none => [])⟩ ::
        if (w.attempt i).opened then [⟨0, [serialize ev.request.frame], []⟩, ⟨2, [], []⟩]
        else [] := by
  rw [latch_succ he hi]
  simp only [calls, he, hi, if_true, Event.func]

def HeaderFrom (codec : Codec) (w : World) (limit : Nat) (e : String × Item) : Prop :=
  (∃ h, e = (h.headerName, .typed h) ∧ ∀ o, h ≠ .xErrorGeneratedBy o) ∨
  ∃ k, w.Answers codec limit k ∧ AppReadDispatch.HeaderFrom codec (w.attempt k).delivery.frames e

theorem headerFrom_typed {codec : Codec} {limit : Nat} (h : Typed)
    (hh : ∀ o, h ≠ .xErrorGeneratedBy o) : w.HeaderFrom codec limit (h.headerName, .typed h) :=
  .inl ⟨h, rfl, hh⟩

theorem expected_relay {codec : Codec} {k limit : Nat} {data : Bytes} {m : ResponseMeta}
    {chunks : List Bytes} (hk : k < limit)
    (hq : ∀ i < k, (w.attempt i).invoked ∧
      ∃ t rest, (w.attempt i).delivery.frames = .error (.service 0x52ff 1 t) :: rest)
    (hw : (w.attempt k).invoked)
    (hd : (w.attempt k).delivery.frames = .write data :: chunks.map .write ++ [.close])
    (hm : codec.fromSlice data = .ok m) (req : AppRequest) (trace : UInt64) :
    AppWithSafeRetry.expected trace (w.outcome codec req) limit =
      (k + 1, .ok (.ready (AppReadDispatch.closeReply codec req.frame.method
        (AppReadDispatch.applyMeta req.trace m Response.new) chunks.flatten))) := by
  refine AppWithSafeRetry.expected_of_first hk (fun i hi => ?_) ?_
  · obtain ⟨hinv, t, rest, hf⟩ := hq i hi
    rw [outcome, if_pos hinv]
    exact Delivery.outcome_of_queueFull hf
  · rw [outcome, if_pos hw, Delivery.outcome_of_relay hd hm]
    rfl

def retrying (settings : Nat → Settings) : World :=
  ⟨fun i => ⟨true, settings i, true, ⟨if i = 0 then [.error (.service 0x52ff 1 "queue is full")]
    else [.write (Msgpack.encode ⟨200, []⟩), .write (utf8 "hi"), .close], none⟩, 0⟩, fun _ => 0⟩

end World

def Invocation.echo (policy : TracingPolicy) : Invocation :=
  ⟨"echo", "say", "/", 7, policy,
    ⟨.get, "/echo/say", .http11, Headers.empty.setRaw "X-User" (utf8 "alice"), .ok []⟩, []⟩

def Call.tracing (c : Call) : List UInt64 × List UInt64 × List UInt64 :=
  (c.headers.filterMap (RawHeader.idNamed "trace_id"),
    c.headers.filterMap (RawHeader.idNamed "span_id"),
    c.headers.filterMap (RawHeader.idNamed "parent_id"))

theorem max_toUInt32_beq_one {i : Nat} (h : i < UInt32.size) :
    ((max i 1).toUInt32 == 1) = decide (i < 2) := by
  rcases Nat.lt_or_ge i 2 with hi | hi
  · rcases i with _ | _ | i
    · rfl
    · rfl
    · omega
  · have h1 : (max i 1).toUInt32.toNat = i := by
      rw [Nat.max_eq_left (by omega)]
      simpa [Nat.toUInt32, UInt32.toNat, UInt32.ofNat] using h
    have h2 : (max i 1).toUInt32 ≠ 1 := fun h => by rw [h] at h1; simp at h1; omega
    rw [beq_eq_false_iff_ne.mpr h2, decide_eq_false (by omega)]

namespace AppRoute

variable {codec : Codec} {serialize : RequestMeta → Bytes} {r : AppRoute} {w : World}
  {inv : Invocation} {limit : UInt32} {g : Rng}

theorem calls_of_reach {s : AppWithSafeRetry}
    (h : AppWithSafeRetry.Reach (w.schedule codec inv.appRequest) (r.start codec w inv limit g) s)
    {i : Nat} (hi : i < s.sent.length) (hinv : (w.attempt i).invoked) :
    w.calls serialize s.sent i =
      ⟨0, [utf8 inv.event], r.mapHeaders inv.request.headers ++
          [.traceId inv.trace, .spanId (g.draw g.pos), .parentId inv.trace] ++
          (if w.latch serialize s.sent (i + 1) then [.traceBit true] else []) ++
          (match (w.attempt i).settings.timeout with
            | some t => [⟨utf8 "request_timeout", packU64 (t * 1000).toUInt64⟩]
            | none => [])⟩ ::
        if (w.attempt i).opened then [⟨0, [serialize inv.appRequest.frame], []⟩, ⟨2, [], []⟩]
        else [] := by
  rw [World.calls_eq (h.getElem?_sent hi) hinv]
  simp [AppWithSafeRetry.eventAt]

theorem exists_run (hl : 1 ≤ limit) : ∃ n s,
    AppWithSafeRetry.drive (w.schedule codec inv.appRequest) n (r.start codec w inv limit g) =
      some (s, (AppWithSafeRetry.expected inv.trace (w.outcome codec inv.appRequest)
        limit.toNat).2) ∧
    s.sent.length = (AppWithSafeRetry.expected inv.trace (w.outcome codec inv.appRequest)
        limit.toNat).1 := by
  have hl' : 1 ≤ limit.toNat := hl
  have hs : AppWithSafeRetry.Pending (r.start codec w inv limit g) := AppWithSafeRetry.pending_new hl'
  rw [AppWithSafeRetry.expected_eq_retrySpec _ _ hl']
  obtain ⟨N, hN⟩ := @AppWithSafeRetry.drive_resolves (w.schedule codec inv.appRequest) _ hs
  exact ⟨N, hN N le_rfl⟩

theorem result_of_run (hl : 1 ≤ limit) {n : Nat} {s : AppWithSafeRetry}
    {res : Poll (Response × Nat)}
    (h : AppWithSafeRetry.drive (w.schedule codec inv.appRequest) n (r.start codec w inv limit g) =
      some (s, res)) (hres : res ≠ .ok .notReady) :
    s.sent.length = (AppWithSafeRetry.expected inv.trace (w.outcome codec inv.appRequest)
        limit.toNat).1 ∧
    res = (AppWithSafeRetry.expected inv.trace (w.outcome codec inv.appRequest) limit.toNat).2 := by
  obtain ⟨N, s', hN, hlen⟩ := @exists_run codec r w inv limit g hl
  have h1 := AppWithSafeRetry.drive_of_le h hres (le_max_left n N)
  have h2 := AppWithSafeRetry.drive_of_le hN (AppWithSafeRetry.expected_ne_notReady _ _ _)
    (le_max_right n N)
  obtain ⟨rfl, rfl⟩ := Prod.mk.inj (Option.some.inj (h1.symm.trans h2))
  exact ⟨hlen, rfl⟩

/-- What a run resolves to a response with: the 500 of the limit, or the reply of the attempt
that answers, the last one dispatched. -/
theorem reply_of_run (hl : 1 ≤ limit) {n : Nat} {s : AppWithSafeRetry} {resp : Response}
    {size : Nat}
    (h : AppWithSafeRetry.drive (w.schedule codec inv.appRequest) n (r.start codec w inv limit g) =
      some (s, .ok (.ready (resp, size)))) :
    (resp, size) = AppWithSafeRetry.exhausted inv.trace ∨
      ∃ k, k + 1 = s.sent.length ∧ w.Answers codec limit.toNat k ∧
        (w.attempt k).delivery.outcome codec inv.appRequest = .ok (some (resp, size)) := by
  obtain ⟨hlen, hres⟩ := result_of_run hl h (by simp)
  rcases AppWithSafeRetry.expected_ready hres.symm with he | ⟨k, hk, ho⟩
  · exact .inl he
  have hr := reach_of_run hl h
  have hle : s.sent.length ≤ limit.toNat := hr.le_limit
  have hret : ∀ j < k, w.outcome codec inv.appRequest j = .ok none := fun j hj =>
    hr.retried j (by omega)
  obtain ⟨hinv, hd⟩ : (w.attempt k).invoked ∧
      (w.attempt k).delivery.outcome codec inv.appRequest = .ok (some (resp, size)) := by
    unfold World.outcome at ho
    split at ho
    exacts [⟨‹_›, ho⟩, nomatch ho]
  refine .inr ⟨k, by omega, ⟨by omega, fun j hj => World.outcome_eq_ok_none.mp (hret j hj), hinv,
    fun hq => ?_⟩, hd⟩
  rw [← Delivery.outcome_eq_ok_none, hd] at hq
  cases hq

theorem wellFormed_of_run (hl : 1 ≤ limit) {n : Nat} {s : AppWithSafeRetry} {resp : Response}
    {size : Nat}
    (h : AppWithSafeRetry.drive (w.schedule codec inv.appRequest) n (r.start codec w inv limit g) =
      some (s, .ok (.ready (resp, size)))) : WellFormed (resp, size) := by
  rcases reply_of_run hl h with he | ⟨k, -, -, ho⟩
  · rw [he]
    exact AppWithSafeRetry.wellFormed_exhausted _
  · exact Delivery.wellFormed_outcome ho

theorem status_of_run (hl : 1 ≤ limit) {n : Nat} {s : AppWithSafeRetry} {resp : Response}
    {size : Nat}
    (h : AppWithSafeRetry.drive (w.schedule codec inv.appRequest) n (r.start codec w inv limit g) =
      some (s, .ok (.ready (resp, size)))) :
    resp.status = .internalServerError ∨
      ∃ k, k + 1 = s.sent.length ∧ w.Answers codec limit.toNat k ∧
        (w.attempt k).delivery.StatusFrom codec resp.status := by
  rcases reply_of_run hl h with he | ⟨k, hk, ha, ho⟩
  · rw [(Prod.mk.inj he).1]
    exact .inl rfl
  · exact (Delivery.status_outcome ho).imp_right fun hs => ⟨k, hk, ha, hs⟩

theorem headers_of_run (hl : 1 ≤ limit) {n : Nat} {s : AppWithSafeRetry} {resp : Response}
    {size : Nat}
    (h : AppWithSafeRetry.drive (w.schedule codec inv.appRequest) n (r.start codec w inv limit g) =
      some (s, .ok (.ready (resp, size)))) :
    ∀ e ∈ resp.headers.entries, w.HeaderFrom codec limit.toNat e := by
  intro e he
  rcases reply_of_run hl h with hx | ⟨k, -, ha, ho⟩
  · rw [(Prod.mk.inj hx).1] at he
    rcases mem_insertEntry he with rfl | he
    exacts [World.headerFrom_typed _ fun _ => nofun, nomatch he]
  · exact .inr ⟨k, ha, Delivery.headers_outcome ho e he⟩

theorem requestId_of_run (hl : 1 ≤ limit) {n : Nat} {s : AppWithSafeRetry} {resp : Response}
    {size : Nat}
    (h : AppWithSafeRetry.drive (w.schedule codec inv.appRequest) n (r.start codec w inv limit g) =
      some (s, .ok (.ready (resp, size)))) :
    resp.requestId? = some (.typed (.xRequestId inv.trace)) ∨
      ∃ k m e, k + 1 = s.sent.length ∧ w.Answers codec limit.toNat k ∧
        AppReadDispatch.metaOf codec (w.attempt k).delivery.frames = some m ∧
        m.headers.reverse.find? (fun e => headerKey e.1 = headerKey "X-Request-Id") = some e ∧
        resp.requestId? = some (.raw [utf8 e.2]) := by
  rcases reply_of_run hl h with he | ⟨k, hk, ha, ho⟩
  · rw [(Prod.mk.inj he).1]
    exact .inl (AppWithSafeRetry.requestId_exhausted inv.trace)
  · exact (Delivery.requestId_outcome ho).imp_right
      fun ⟨m, e, hm, hf, hv⟩ => ⟨k, m, e, hk, ha, hm, hf, hv⟩

theorem body_of_run (hl : 1 ≤ limit) {n : Nat} {s : AppWithSafeRetry} {resp : Response}
    {size : Nat}
    (h : AppWithSafeRetry.drive (w.schedule codec inv.appRequest) n (r.start codec w inv limit g) =
      some (s, .ok (.ready (resp, size)))) {b : Bytes} (hb : resp.body = some b) :
    b = utf8 "Retry limit exceeded: queue is full" ∨
      ∃ k, k + 1 = s.sent.length ∧ w.Answers codec limit.toNat k ∧
        (w.attempt k).delivery.BodyFrom codec inv.request.method b := by
  rcases reply_of_run hl h with he | ⟨k, hk, ha, ho⟩
  · rw [(Prod.mk.inj he).1] at hb
    exact .inl (Option.some.inj hb).symm
  · exact .inr ⟨k, hk, ha, Delivery.body_outcome ho hb⟩

theorem latch_eq_any (hl : 1 ≤ limit) {n : Nat} {s : AppWithSafeRetry}
    {res : Poll (Response × Nat)}
    (h : AppWithSafeRetry.drive (w.schedule codec inv.appRequest) n (r.start codec w inv limit g) =
      some (s, res)) {i : Nat} (hi : i ≤ s.sent.length) :
    w.latch serialize s.sent i = (List.range (min i 2)).any fun j =>
      (w.attempt j).invoked && (decide (AppWithSafeRetry.manualVerbose
        (w.schedule codec inv.appRequest) j inv.tracingPolicy = some true) ||
          (w.attempt j).settings.verbose) := by
  have hr := reach_of_run hl h
  have hsize : s.sent.length < UInt32.size := lt_of_le_of_lt hr.le_limit limit.toNat_lt_size
  induction i with
  | zero => rfl
  | succ i ih =>
    have he := hr.getElem?_sent (by omega : i < s.sent.length)
    rw [World.latch, he, ih (by omega)]
    simp only [Event.func, AppWithSafeRetry.eventAt,
      max_toUInt32_beq_one (by omega : i < UInt32.size)]
    rcases Nat.lt_or_ge i 2 with hi2 | hi2
    · rw [Nat.min_eq_left (by omega : i + 1 ≤ 2), Nat.min_eq_left hi2.le, List.range_succ]
      by_cases hv : (w.attempt i).invoked <;> simp [hv, hi2]
    · rw [Nat.min_eq_right (by omega : 2 ≤ i + 1), Nat.min_eq_right hi2]
      by_cases hv : (w.attempt i).invoked <;> simp [hv, Nat.not_lt.mpr hi2]

/-- In every run, the latch after the first `i` closures is set iff the pool ran the first or the
second attempt as verbose: by a Manual draw at most `p`, or by its settings. -/
theorem latch_of_run (codec : Codec) (serialize : RequestMeta → Bytes) (r : AppRoute) (w : World)
    (inv : Invocation) (limit : UInt32) (hl : 1 ≤ limit) (g : Rng) :
    ∀ n s res, AppWithSafeRetry.drive (w.schedule codec inv.appRequest) n
        (r.start codec w inv limit g) = some (s, res) →
      ∀ i ≤ s.sent.length, (w.latch serialize s.sent i = true ↔
        ∃ j < min i 2, (w.attempt j).invoked ∧
          ((∃ p, inv.tracingPolicy = .manual p ∧ w.sample j ≤ p) ∨
            (w.attempt j).settings.verbose)) := by
  intro n s res h i hi
  rw [latch_eq_any hl h hi, List.any_eq_true]
  simp only [List.mem_range, Bool.and_eq_true, Bool.or_eq_true, decide_eq_true_eq,
    AppWithSafeRetry.manualVerbose_eq_some_true]
  rfl

theorem latch_of_run_manual :
    ∃ n s res, AppWithSafeRetry.drive ((World.retrying fun _ => ⟨none, false⟩).schedule
        Msgpack.codec (Invocation.echo (.manual 0.5)).appRequest) n
      (AppRoute.new.start Msgpack.codec (World.retrying fun _ => ⟨none, false⟩)
        (Invocation.echo (.manual 0.5)) 3 ⟨fun n => n.toUInt64, 0⟩) = some (s, res) ∧
    s.sent.length = 2 ∧
    ∀ i ≤ s.sent.length, ((World.retrying fun _ => ⟨none, false⟩).latch (fun _ => []) s.sent i =
        true ↔ ∃ j < min i 2, ((World.retrying fun _ => ⟨none, false⟩).attempt j).invoked ∧
          ((∃ p, (Invocation.echo (.manual 0.5)).tracingPolicy = .manual p ∧
              (World.retrying fun _ => ⟨none, false⟩).sample j ≤ p) ∨
            ((World.retrying fun _ => ⟨none, false⟩).attempt j).settings.verbose)) := by
  obtain ⟨n, s, h, hl⟩ := @exists_run Msgpack.codec AppRoute.new
    (World.retrying fun _ => ⟨none, false⟩) (Invocation.echo (.manual 0.5)) 3
    ⟨fun n => n.toUInt64, 0⟩ (by decide)
  exact ⟨n, s, _, h, hl, latch_of_run Msgpack.codec (fun _ => []) _ _ _ 3 (by decide) _ n s _ h⟩

/-- The size a run reports is the byte length of the response's body, 0 without one: what
`invoke` commits to the access log. -/
theorem size_of_run (codec : Codec) (r : AppRoute) (w : World) (inv : Invocation)
    (limit : UInt32) (hl : 1 ≤ limit) (g : Rng) :
    ∀ n s resp size, AppWithSafeRetry.drive (w.schedule codec inv.appRequest) n
        (r.start codec w inv limit g) = some (s, .ok (.ready (resp, size))) →
      size = (resp.body.getD []).length :=
  fun _ _ _ _ h => (wellFormed_of_run hl h).sized

theorem size_of_run_retrying :
    ∃ n s resp size, AppWithSafeRetry.drive ((World.retrying fun _ => ⟨none, false⟩).schedule
        Msgpack.codec (Invocation.echo .auto).appRequest) n
      (AppRoute.new.start Msgpack.codec (World.retrying fun _ => ⟨none, false⟩)
        (Invocation.echo .auto) 3 ⟨fun n => n.toUInt64, 0⟩) =
        some (s, .ok (.ready (resp, size))) ∧
      resp.body = some (utf8 "hi") ∧ size = (resp.body.getD []).length := by
  obtain ⟨n, s, h, -⟩ := @exists_run Msgpack.codec AppRoute.new
    (World.retrying fun _ => ⟨none, false⟩) (Invocation.echo .auto) 3 ⟨fun n => n.toUInt64, 0⟩
    (by decide)
  exact ⟨n, s, _, _, h, rfl, size_of_run Msgpack.codec _ _ _ 3 (by decide) _ n s _ _ h⟩

/-- In every run, attempt `k + 1` is dispatched only after the pool ran attempt `k` and its
stream met the queue-full error, first or after a meta frame that decodes and data chunks. -/
theorem retried_only_after_queue_full (codec : Codec) (r : AppRoute) (w : World) (inv : Invocation)
    (limit : UInt32) (hl : 1 ≤ limit) (g : Rng) :
    ∀ n s res, AppWithSafeRetry.drive (w.schedule codec inv.appRequest) n
        (r.start codec w inv limit g) = some (s, res) →
      ∀ k, k + 1 < s.sent.length → (w.attempt k).invoked ∧
        ∃ pre t rest, (w.attempt k).delivery.frames =
            pre ++ .error (.service 0x52ff 1 t) :: rest ∧
          (pre = [] ∨ ∃ data m, ∃ chunks : List Bytes, pre = .write data :: chunks.map .write ∧
            codec.fromSlice data = .ok m) :=
  fun _ _ _ h k hk => World.outcome_eq_ok_none.mp ((reach_of_run hl h).retried k hk)

theorem retried_only_after_queue_full_retrying :
    ∃ n s res, AppWithSafeRetry.drive ((World.retrying fun _ => ⟨none, false⟩).schedule
        Msgpack.codec (Invocation.echo .auto).appRequest) n
      (AppRoute.new.start Msgpack.codec (World.retrying fun _ => ⟨none, false⟩)
        (Invocation.echo .auto) 3 ⟨fun n => n.toUInt64, 0⟩) = some (s, res) ∧
    s.sent.length = 2 ∧
    ∀ k, k + 1 < s.sent.length → ((World.retrying fun _ => ⟨none, false⟩).attempt k).invoked ∧
      ∃ pre t rest, ((World.retrying fun _ => ⟨none, false⟩).attempt k).delivery.frames =
          pre ++ .error (.service 0x52ff 1 t) :: rest ∧
        (pre = [] ∨ ∃ data m, ∃ chunks : List Bytes, pre = .write data :: chunks.map .write ∧
          Msgpack.codec.fromSlice data = .ok m) := by
  obtain ⟨n, s, h, hl⟩ := @exists_run Msgpack.codec AppRoute.new
    (World.retrying fun _ => ⟨none, false⟩) (Invocation.echo .auto) 3 ⟨fun n => n.toUInt64, 0⟩
    (by decide)
  exact ⟨n, s, _, h, hl,
    retried_only_after_queue_full Msgpack.codec _ _ _ 3 (by decide) _ n s _ h⟩

/-- The first attempt's worker sends the meta frame, then the queue-full error: the request is
dispatched a second time. -/
theorem retried_after_meta :
    ∃ n s res, AppWithSafeRetry.drive ((World.ofFrames (fun i => if i = 0 then
        [.write (Msgpack.encode ⟨200, []⟩), .error (.service 0x52ff 1 "queue is full")] else
        [.write (Msgpack.encode ⟨200, []⟩), .close]) fun _ => false).schedule Msgpack.codec
          (⟨"echo", "say", "/", 7, .auto, ⟨.get, "/echo/say", .http11, .empty, .ok []⟩, []⟩ :
            Invocation).appRequest) n
      (AppRoute.new.start Msgpack.codec (World.ofFrames (fun i => if i = 0 then
        [.write (Msgpack.encode ⟨200, []⟩), .error (.service 0x52ff 1 "queue is full")] else
        [.write (Msgpack.encode ⟨200, []⟩), .close]) fun _ => false)
        ⟨"echo", "say", "/", 7, .auto, ⟨.get, "/echo/say", .http11, .empty, .ok []⟩, []⟩ 3
        ⟨fun n => n.toUInt64, 0⟩) = some (s, res) ∧
    s.sent.length = 2 ∧
    ∃ d, (AppReadDispatch.init (⟨"echo", "say", "/", 7, .auto,
      ⟨.get, "/echo/say", .http11, .empty, .ok []⟩, []⟩ : Invocation).appRequest).process
        Msgpack.codec (.write (Msgpack.encode ⟨200, []⟩)) = .next d ∧ d.body = some [] := by
  obtain ⟨n, s, h, hl⟩ :=
    @exists_run Msgpack.codec AppRoute.new _ _ 3 ⟨fun n => n.toUInt64, 0⟩ (by decide)
  exact ⟨n, s, _, h, hl, _, rfl, rfl⟩

theorem second_attempt_sets_latch (serialize : RequestMeta → Bytes) :
    ∃ n s res, AppWithSafeRetry.drive ((World.ofFrames (fun i => if i = 0 then
        [.error (.service 0x52ff 1 "queue is full")] else
        [.write (Msgpack.encode ⟨200, []⟩), .close]) fun i => i == 1).schedule Msgpack.codec
          (⟨"echo", "say", "/", 7, .auto, ⟨.get, "/echo/say", .http11, .empty, .ok []⟩, []⟩ :
            Invocation).appRequest) n
      (AppRoute.new.start Msgpack.codec (World.ofFrames (fun i => if i = 0 then
        [.error (.service 0x52ff 1 "queue is full")] else
        [.write (Msgpack.encode ⟨200, []⟩), .close]) fun i => i == 1)
        ⟨"echo", "say", "/", 7, .auto, ⟨.get, "/echo/say", .http11, .empty, .ok []⟩, []⟩ 3
        ⟨fun n => n.toUInt64, 0⟩) = some (s, res) ∧
    ((World.ofFrames (fun i => if i = 0 then
        [.error (.service 0x52ff 1 "queue is full")] else
        [.write (Msgpack.encode ⟨200, []⟩), .close]) fun i => i == 1).calls serialize s.sent 0).head? =
      some ⟨0, [utf8 "say"], [.traceId 7, .spanId 0, .parentId 7]⟩ ∧
    ((World.ofFrames (fun i => if i = 0 then
        [.error (.service 0x52ff 1 "queue is full")] else
        [.write (Msgpack.encode ⟨200, []⟩), .close]) fun i => i == 1).calls serialize s.sent 1).head? =
      some ⟨0, [utf8 "say"], [.traceId 7, .spanId 0, .parentId 7, .traceBit true]⟩ := by
  obtain ⟨n, s, h, hl⟩ :=
    @exists_run Msgpack.codec AppRoute.new _ _ 3 ⟨fun n => n.toUInt64, 0⟩ (by decide)
  have hs := (reach_of_run (by decide) h).sent
  refine ⟨n, s, _, h, ?_⟩
  rw [hs, hl]
  exact ⟨rfl, rfl⟩

theorem span_shared_by_retries (serialize : RequestMeta → Bytes) :
    (∀ i j : Nat, i < UInt64.size → j < UInt64.size → i ≠ j →
      (⟨fun n => n.toUInt64, 0⟩ : Rng).draw i ≠ (⟨fun n => n.toUInt64, 0⟩ : Rng).draw j) ∧
    ∃ n s res, AppWithSafeRetry.drive ((World.ofFrames (fun i => if i = 0 then
        [.error (.service 0x52ff 1 "queue is full")] else
        [.write (Msgpack.encode ⟨200, []⟩), .close]) fun _ => false).schedule Msgpack.codec
          (⟨"echo", "say", "/", 7, .auto, ⟨.get, "/echo/say", .http11, .empty, .ok []⟩, []⟩ :
            Invocation).appRequest) n
      (AppRoute.new.start Msgpack.codec (World.ofFrames (fun i => if i = 0 then
        [.error (.service 0x52ff 1 "queue is full")] else
        [.write (Msgpack.encode ⟨200, []⟩), .close]) fun _ => false)
        ⟨"echo", "say", "/", 7, .auto, ⟨.get, "/echo/say", .http11, .empty, .ok []⟩, []⟩ 3
        ⟨fun n => n.toUInt64, 0⟩) = some (s, res) ∧
    s.sent.length = 2 ∧
    ((World.ofFrames (fun i => if i = 0 then
        [.error (.service 0x52ff 1 "queue is full")] else
        [.write (Msgpack.encode ⟨200, []⟩), .close]) fun _ => false).calls serialize s.sent 0).head?.map
      Call.tracing = some ([7], [0], [7]) ∧
    ((World.ofFrames (fun i => if i = 0 then
        [.error (.service 0x52ff 1 "queue is full")] else
        [.write (Msgpack.encode ⟨200, []⟩), .close]) fun _ => false).calls serialize s.sent 1).head?.map
      Call.tracing = some ([7], [0], [7]) := by
  refine ⟨fun i j hi hj hne heq => hne ?_, ?_⟩
  · have := congrArg UInt64.toNat heq
    simp only [Nat.toUInt64, UInt64.toNat, UInt64.ofNat, BitVec.toNat_ofNat] at this
    rwa [Nat.mod_eq_of_lt hi, Nat.mod_eq_of_lt hj] at this
  obtain ⟨n, s, h, hl⟩ :=
    @exists_run Msgpack.codec AppRoute.new _ _ 3 ⟨fun n => n.toUInt64, 0⟩ (by decide)
  have hs := (reach_of_run (by decide) h).sent
  refine ⟨n, s, _, h, hl, ?_⟩
  rw [hs, hl]
  exact ⟨rfl, rfl⟩

theorem backend_request_id_wins :
    ∃ n s resp size, AppWithSafeRetry.drive ((World.ofFrames (fun _ =>
        [.write (Msgpack.encode ⟨200, [("X-Request-Id", "1")]⟩), .close]) fun _ => false).schedule
          Msgpack.codec (⟨"echo", "say", "/", 7, .auto, ⟨.get, "/echo/say", .http11, .empty, .ok []⟩,
            []⟩ : Invocation).appRequest) n
      (AppRoute.new.start Msgpack.codec (World.ofFrames (fun _ =>
        [.write (Msgpack.encode ⟨200, [("X-Request-Id", "1")]⟩), .close]) fun _ => false)
        ⟨"echo", "say", "/", 7, .auto, ⟨.get, "/echo/say", .http11, .empty, .ok []⟩, []⟩ 3
        ⟨fun n => n.toUInt64, 0⟩) = some (s, .ok (.ready (resp, size))) ∧
    resp.requestId? = some (.raw [utf8 "1"]) := by
  obtain ⟨n, s, h, -⟩ :=
    @exists_run Msgpack.codec AppRoute.new _ _ 3 ⟨fun n => n.toUInt64, 0⟩ (by decide)
  exact ⟨n, s, _, _, h, rfl⟩

end AppRoute

end CocaineHttpProxy
