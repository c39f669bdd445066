import CocaineHttpProxy.Protocol

namespace CocaineHttpProxy

/-- `AppReadDispatch` without its `tx`: what it sends on `tx` is the result of `process` or
`discard`. -/
structure AppReadDispatch where
  method : Method
  body : Option Bytes
  trace : UInt64
  response : Option Response

/-- What goes over an attempt's one-shot channel: a response and the size of its body, or
`None` for a failure that is safe to retry. -/
abbrev Reply := Option (Response × Nat)

/-- A reply as hyper and the access log take it: a status in `100..=599`, and as its size the
length of its body in bytes, 0 without one. -/
structure WellFormed (r : Response × Nat) : Prop where
  valid : r.1.status.Valid
  sized : r.2 = (r.1.body.getD []).length

/-- What `process` leaves: the dispatcher it hands back (`Some(self)`), the reply it sent on
`tx` before answering `None`, or a panic of one of its `unwrap`s. -/
inductive Processed
  | next (d : AppReadDispatch)
  | replied (r : Reply)
  | panicked

def Processed.onTx : Processed → Option (List Reply × Option AppReadDispatch)
  | .next d => some ([], some d)
  | .replied r => some ([r], none)
  | .panicked => none

def CocaineError.isQueueFull : CocaineError → Bool
  | .service category code _ => category = 0x52ff && code = 1
  | .other _ => false

namespace AppReadDispatch

/-- The dispatcher the closure of `make_future` registers with `service.call`. -/
def init (req : AppRequest) : AppReadDispatch :=
  ⟨req.frame.method, none, req.trace, some Response.new⟩

def failure (trace : UInt64) (text : String) : Response × Nat :=
  (((Response.new.withStatus .internalServerError).withHeader (.xRequestId trace)).withBody
    (utf8 text), text.utf8ByteSize)

/-- `StatusCode::try_from(meta.code as u16).unwrap_or(InternalServerError)`. -/
def metaStatus (code : UInt32) : StatusCode :=
  (StatusCode.tryFrom code.toUInt16).getD .internalServerError

def setRawAll : Response → List (String × String) → Response
  | r, [] => r
  | r, (n, v) :: hs => setRawAll (r.setRaw n (utf8 v)) hs

def applyMeta (trace : UInt64) (meta : ResponseMeta) (resp : Response) : Response :=
  setRawAll ((resp.withStatus (metaStatus meta.code)).withHeader (.xRequestId trace)) meta.headers

def contentLength (codec : Codec) (hs : Headers) : Option Nat :=
  match hs.find? "Content-Length" with
  | some (.raw lines) => codec.contentLength lines
  | _ => none

/-- The reply at `close` once the meta frame came, with the body-less cases of RFC 2616. -/
def closeReply (codec : Codec) (method : Method) (resp : Response) (body : Bytes) :
    Response × Nat :=
  if method = .head then (resp, 0)
  else if resp.status = .noContent ∨ resp.status = .notModified then (resp, 0)
  else
    let hasBody := !body.isEmpty &&
      ((contentLength codec resp.headers).map fun len => decide (0 < len)).getD true
    if hasBody then (resp.withBody body, body.length) else (resp, 0)

/-- A backend error: a 500 with its message, marked as the gateway's for category `0x54ff`. -/
def errorReply (trace : UInt64) (e : CocaineError) : Response × Nat :=
  let r := failure trace e.text
  match e with
  | .service category _ _ =>
    if category = 0x54ff then (r.1.withHeader (.xErrorGeneratedBy "vicodyn"), r.2) else r
  | .other _ => r

def process (codec : Codec) (d : AppReadDispatch) : Frame → Processed
  | .write data =>
    match d.body with
    | none =>
      match codec.fromSlice data with
      | .error err => .replied (some (failure d.trace err))
      | .ok meta =>
        match d.response with
        | none => .panicked
        | some resp =>
          .next { d with response := some (applyMeta d.trace meta resp), body := some [] }
    | some body => .next { d with body := some (body ++ data) }
  | .close =>
    match d.body with
    | some body =>
      match d.response with
      | none => .panicked
      | some resp => .replied (some (closeReply codec d.method resp body))
    | none => .replied (some (failure d.trace "received `close` event without prior meta info"))
  | .error e => if e.isQueueFull then .replied none else .replied (some (errorReply d.trace e))

def discard (d : AppReadDispatch) (e : CocaineError) : Response × Nat :=
  let status : StatusCode := match e with
    | .service category code _ =>
      if category = 10 ∧ code = 1 then .serviceUnavailable else .internalServerError
    | .other _ => .internalServerError
  (((Response.new.withStatus status).withHeader (.xRequestId d.trace)).withBody (utf8 e.text),
    e.text.utf8ByteSize)

/-- The frames of a stream, handed to the dispatcher while it answers `Some(self)`. -/
def feed (codec : Codec) : AppReadDispatch → List Frame → Processed
  | d, [] => .next d
  | d, f :: fs =>
    match d.process codec f with
    | .next d' => d'.feed codec fs
    | r => r

/-- `process` with its sends on `tx` written out: the values sent, and the dispatcher handed
back (`Some(self)`) or `none` for `None`; `none` outside is a panic of an `unwrap`. -/
def processTx (codec : Codec) (d : AppReadDispatch) :
    Frame → Option (List Reply × Option AppReadDispatch)
  | .write data =>
    match d.body with
    | none =>
      match codec.fromSlice data with
      | .error err => some ([some (failure d.trace err)], none)
      | .ok meta =>
        match d.response with
        | none => none
        | some resp =>
          some ([], some { d with response := some (applyMeta d.trace meta resp), body := some [] })
    | some body => some ([], some { d with body := some (body ++ data) })
  | .close =>
    let reply : Option (Response × Nat) :=
      match d.body with
      | some body =>
        match d.response with
        | none => none
        | some resp => some (closeReply codec d.method resp body)
      | none => some (failure d.trace "received `close` event without prior meta info")
    reply.map fun r => ([some r], none)
  | .error e =>
    if e.isQueueFull then some ([none], none) else some ([some (errorReply d.trace e)], none)

def discardTx (d : AppReadDispatch) (e : CocaineError) : List Reply := [some (d.discard e)]

def feedTx (codec : Codec) :
    AppReadDispatch → List Frame → Option (List Reply × Option AppReadDispatch)
  | d, [] => some ([], some d)
  | d, f :: fs =>
    match d.processTx codec f with
    | some (sent, some d') => (d'.feedTx codec fs).map fun r => (sent ++ r.1, r.2)
    | r => r

/-- The body-less cases of `close`: HEAD, 204, 304, an empty body, or `Content-Length: 0`. -/
def Bodiless (codec : Codec) (method : Method) (resp : Response) (body : Bytes) : Prop :=
  method = .head ∨ resp.status = .noContent ∨ resp.status = .notModified ∨ body = [] ∨
    contentLength codec resp.headers = some 0

instance (codec : Codec) (method : Method) (resp : Response) (body : Bytes) :
    Decidable (Bodiless codec method resp body) :=
  inferInstanceAs (Decidable (_ ∨ _ ∨ _ ∨ _ ∨ _))

variable (codec : Codec)

theorem closeReply_eq (method : Method) (resp : Response) (body : Bytes) :
    closeReply codec method resp body =
      if Bodiless codec method resp body then (resp, 0) else (resp.withBody body, body.length) := by
  unfold closeReply Bodiless
  by_cases hm : method = .head
  · simp [hm]
  by_cases hs : resp.status = .noContent ∨ resp.status = .notModified
  · rcases hs with hs | hs <;> simp [hs]
  have hs' : ¬ resp.status = .noContent ∧ ¬ resp.status = .notModified := not_or.mp hs
  have hcl : (contentLength codec resp.headers = some 0) ↔
      ((contentLength codec resp.headers).map fun len => decide (0 < len)).getD true = false := by
    rcases contentLength codec resp.headers with _ | _ | n <;> simp
  by_cases h0 : contentLength codec resp.headers = some 0
  · cases body <;> simp [hm, hs', h0, hcl.mp h0]
  · cases body <;> simp [hm, hs', h0, hcl.not.mp h0]

@[simp] theorem bodiless_withBody (method : Method) (resp : Response) (b body : Bytes) :
    Bodiless codec method (resp.withBody b) body ↔ Bodiless codec method resp body := Iff.rfl

@[simp] theorem setRawAll_status (r : Response) (hs : List (String × String)) :
    (setRawAll r hs).status = r.status := by
  induction hs generalizing r with
  | nil => rfl
  | cons e hs ih => exact (ih _).trans rfl

@[simp] theorem setRawAll_body (r : Response) (hs : List (String × String)) :
    (setRawAll r hs).body = r.body := by
  induction hs generalizing r with
  | nil => rfl
  | cons e hs ih => exact (ih _).trans rfl

/-- Each `set_raw` replaces the header's earlier value: the last entry of a name wins. -/
theorem find?_setRawAll (r : Response) (hs : List (String × String)) (n : String) :
    (setRawAll r hs).headers.find? n =
      match hs.reverse.find? fun e => headerKey e.1 = headerKey n with
      | some e => some (.raw [utf8 e.2])
      | none => r.headers.find? n := by
  induction hs generalizing r with
  | nil => rfl
  | cons e hs ih =>
    obtain ⟨n', v⟩ := e
    rw [setRawAll, ih, List.reverse_cons, List.find?_append]
    cases hs.reverse.find? fun e => headerKey e.1 = headerKey n with
    | some e => rfl
    | none =>
      by_cases h : headerKey n' = headerKey n
      · simp [h, Headers.setRaw, Headers.find?_insert]
      · simp [h, Headers.setRaw, Headers.find?_insert, Ne.symm h]

theorem feed_duplicate_header_keeps_last :
    ∃ resp size, (AppReadDispatch.mk .get none 7 (some .new)).feed Msgpack.codec
        [.write (Msgpack.encode ⟨200, [("Set-Cookie", "a"), ("Set-Cookie", "b")]⟩), .close] =
        .replied (some (resp, size)) ∧
      resp.headers.find? "Set-Cookie" = some (.raw [utf8 "b"]) :=
  ⟨_, _, rfl, rfl⟩

@[simp] theorem applyMeta_status (trace : UInt64) (m : ResponseMeta) (resp : Response) :
    (applyMeta trace m resp).status = metaStatus m.code := by simp [applyMeta]

@[simp] theorem applyMeta_body (trace : UInt64) (m : ResponseMeta) (resp : Response) :
    (applyMeta trace m resp).body = resp.body := by simp [applyMeta]

theorem requestId_applyMeta (trace : UInt64) (m : ResponseMeta) (resp : Response) :
    (applyMeta trace m resp).requestId? =
      match m.headers.reverse.find? fun e => headerKey e.1 = headerKey "X-Request-Id" with
      | some e => some (.raw [utf8 e.2])
      | none => some (.typed (.xRequestId trace)) := by
  rw [Response.requestId?, applyMeta, find?_setRawAll]
  cases m.headers.reverse.find? fun e => headerKey e.1 = headerKey "X-Request-Id" with
  | some e => rfl
  | none => exact Response.requestId_withHeader _ _

theorem metaStatus_eq (code : UInt32) :
    metaStatus code = if 100 ≤ code.toNat % 65536 ∧ code.toNat % 65536 ≤ 599
      then ⟨code.toNat % 65536⟩ else .internalServerError := by
  have h : code.toUInt16.toNat = code.toNat % 65536 := rfl
  unfold metaStatus StatusCode.tryFrom
  rw [h]
  split <;> rfl

theorem feed_wrapped_code_status :
    ∃ resp size, (AppReadDispatch.mk .get none 7 (some .new)).feed Msgpack.codec
        [.write (Msgpack.encode ⟨65736, []⟩), .close] = .replied (some (resp, size)) ∧
      resp.status = ⟨200⟩ :=
  ⟨_, _, rfl, rfl⟩

theorem feed_append (d : AppReadDispatch) (xs ys : List Frame) :
    d.feed codec (xs ++ ys) =
      match d.feed codec xs with
      | .next d' => d'.feed codec ys
      | r => r := by
  induction xs generalizing d with
  | nil => rfl
  | cons f fs ih =>
    simp only [List.cons_append, feed]
    cases d.process codec f with
    | next d' => exact ih d'
    | replied r => rfl
    | panicked => rfl

theorem process_eq_next {d d' : AppReadDispatch} {f : Frame} (h : d.process codec f = .next d') :
    ∃ data, f = .write data ∧
      ((d.body = none ∧ ∃ m resp, codec.fromSlice data = .ok m ∧ d.response = some resp ∧
          d' = { d with response := some (applyMeta d.trace m resp), body := some [] }) ∨
        ∃ body, d.body = some body ∧ d' = { d with body := some (body ++ data) }) := by
  cases f with
  | write data =>
    refine ⟨data, rfl, ?_⟩
    simp only [process] at h
    split at h
    · split at h
      · cases h
      · split at h
        · cases h
        · cases h; exact .inl ⟨‹_›, _, _, ‹_›, ‹_›, rfl⟩
    · cases h; exact .inr ⟨_, ‹_›, rfl⟩
  | close => simp only [process] at h; split at h <;> (try split at h) <;> cases h
  | error e => simp only [process] at h; split at h <;> cases h

theorem process_eq_replied_some {d : AppReadDispatch} {f : Frame} {r : Response × Nat}
    (h : d.process codec f = .replied (some r)) :
    (∃ data err, f = .write data ∧ d.body = none ∧ codec.fromSlice data = .error err ∧
      r = failure d.trace err) ∨
    (f = .close ∧ ((∃ body resp, d.body = some body ∧ d.response = some resp ∧
        r = closeReply codec d.method resp body) ∨
      (d.body = none ∧ r = failure d.trace "received `close` event without prior meta info"))) ∨
    ∃ e, f = .error e ∧ e.isQueueFull = false ∧ r = errorReply d.trace e := by
  cases f with
  | write data =>
    simp only [process] at h
    split at h
    · split at h
      · cases h; exact .inl ⟨data, _, rfl, ‹_›, ‹_›, rfl⟩
      · split at h <;> cases h
    · cases h
  | close =>
    simp only [process] at h
    split at h
    · split at h
      · cases h
      · cases h; exact .inr (.inl ⟨rfl, .inl ⟨_, _, ‹_›, ‹_›, rfl⟩⟩)
    · cases h; exact .inr (.inl ⟨rfl, .inr ⟨‹_›, rfl⟩⟩)
  | error e =>
    simp only [process] at h
    split at h
    · cases h
    · cases h; exact .inr (.inr ⟨e, rfl, Bool.eq_false_iff.mpr ‹_›, rfl⟩)

/-- The dispatcher sends `None` only for the queue-full error. -/
theorem process_eq_replied_none {d : AppReadDispatch} {f : Frame} :
    d.process codec f = .replied none ↔ ∃ t, f = .error (.service 0x52ff 1 t) := by
  cases f with
  | write data =>
    simp only [process, reduceCtorEq, exists_false, iff_false]
    split <;> (try split) <;> (try split) <;> simp
  | close => simp only [process]; split <;> (try split) <;> simp
  | error e =>
    cases e with
    | service c k t =>
      by_cases hq : c = 0x52ff ∧ k = 1
      · simp [process, CocaineError.isQueueFull, hq]
      · simp only [process, CocaineError.isQueueFull, Frame.error.injEq,
          CocaineError.service.injEq]
        simp_all
    | other t => simp [process, CocaineError.isQueueFull]

theorem process_meta {d : AppReadDispatch} {resp : Response} {data : Bytes} {m : ResponseMeta}
    (hb : d.body = none) (hr : d.response = some resp) (hm : codec.fromSlice data = .ok m) :
    d.process codec (.write data) =
      .next { d with response := some (applyMeta d.trace m resp), body := some [] } := by
  simp [process, hb, hr, hm]

theorem feed_chunks (d : AppReadDispatch) {body : Bytes} (hb : d.body = some body)
    (cs : List Bytes) :
    d.feed codec (cs.map .write) = .next { d with body := some (body ++ cs.flatten) } := by
  induction cs generalizing d body with
  | nil => cases d; simp_all [feed]
  | cons c cs ih =>
    simp only [List.map_cons, feed, process, hb]
    rw [ih _ rfl]
    simp

theorem feed_meta_chunks_close (req : AppRequest) {data : Bytes} {m : ResponseMeta}
    (hm : codec.fromSlice data = .ok m) (chunks : List Bytes) :
    (∀ k ≤ chunks.length, ∃ d,
      (init req).feed codec (.write data :: (chunks.take k).map .write) = .next d) ∧
    ∃ resp size,
      (init req).feed codec (.write data :: chunks.map .write ++ [.close]) =
        .replied (some (resp, size)) ∧
      resp.status = metaStatus m.code ∧
      if Bodiless codec req.frame.method resp chunks.flatten then resp.body = none ∧ size = 0
      else resp.body = some chunks.flatten ∧ size = chunks.flatten.length := by
  let r := applyMeta req.trace m Response.new
  have h1 : (init req).process codec (.write data) = .next ⟨req.frame.method, some [], req.trace, r⟩ :=
    process_meta codec rfl rfl hm
  have hc (cs : List Bytes) : (⟨req.frame.method, some [], req.trace, r⟩ : AppReadDispatch).feed
      codec (cs.map .write) = .next ⟨req.frame.method, some cs.flatten, req.trace, r⟩ := by
    simpa using feed_chunks codec ⟨req.frame.method, some [], req.trace, r⟩ rfl cs
  refine ⟨fun k _ => ⟨_, by rw [feed, h1]; exact hc _⟩, ?_⟩
  rw [List.cons_append, feed, h1]
  dsimp only
  rw [feed_append, hc]
  simp only [feed, process]
  rw [closeReply_eq]
  split
  · refine ⟨_, _, rfl, by simp [r], ?_⟩
    rw [if_pos ‹_›]
    exact ⟨by simp [r], rfl⟩
  · refine ⟨_, _, rfl, by simp [r], ?_⟩
    rw [if_neg (by simpa using ‹_›)]
    exact ⟨rfl, rfl⟩

theorem feed_meta_chunks_close_get :
    Msgpack.codec.fromSlice (Msgpack.encode ⟨200, []⟩) = .ok ⟨200, []⟩ ∧
    (∀ k ≤ [[104, 105]].length, ∃ d,
      (init ⟨"echo", "say", 7, ⟨.get, "/", .http11, [], []⟩⟩).feed Msgpack.codec
        (.write (Msgpack.encode ⟨200, []⟩) :: ([[104, 105]].take k).map .write) = .next d) ∧
    ∃ resp size,
      (init ⟨"echo", "say", 7, ⟨.get, "/", .http11, [], []⟩⟩).feed Msgpack.codec
        (.write (Msgpack.encode ⟨200, []⟩) :: [[104, 105]].map .write ++ [.close]) =
        .replied (some (resp, size)) ∧
      resp.status = metaStatus (⟨200, []⟩ : ResponseMeta).code ∧
      if Bodiless Msgpack.codec .get resp [[104, 105]].flatten then resp.body = none ∧ size = 0
      else resp.body = some [[104, 105]].flatten ∧ size = [[104, 105]].flatten.length :=
  ⟨rfl, @feed_meta_chunks_close Msgpack.codec ⟨"echo", "say", 7, ⟨.get, "/", .http11, [], []⟩⟩
    (Msgpack.encode ⟨200, []⟩) ⟨200, []⟩ rfl [[104, 105]]⟩

def metaOf : List Frame → Option ResponseMeta
  | .write data :: _ => (codec.fromSlice data).toOption
  | _ => none

theorem metaOf_write {data : Bytes} {m : ResponseMeta} (hm : codec.fromSlice data = .ok m)
    (rest : List Frame) : metaOf codec (.write data :: rest) = some m := by
  simp [metaOf, hm, Except.toOption]

def afterMeta (req : AppRequest) (m : ResponseMeta) (body : Bytes) : AppReadDispatch :=
  ⟨req.frame.method, some body, req.trace, some (applyMeta req.trace m Response.new)⟩

theorem feed_meta_chunks (req : AppRequest) {data : Bytes} {m : ResponseMeta}
    (hm : codec.fromSlice data = .ok m) (chunks : List Bytes) :
    (init req).feed codec (.write data :: chunks.map .write) =
      .next (afterMeta req m chunks.flatten) := by
  rw [feed, process_meta codec rfl rfl hm]
  show (afterMeta req m []).feed codec (chunks.map .write) = _
  rw [feed_chunks codec _ rfl]
  rfl

/-- The live dispatchers of a stream from `init req`, by the frames seen: the fresh one before
any frame; after a meta frame that decodes and data chunks, `afterMeta` of them. -/
def Live (req : AppRequest) (seen : List Frame) (d : AppReadDispatch) : Prop :=
  seen = [] ∧ d = init req ∨
  ∃ data m, ∃ chunks : List Bytes, seen = .write data :: chunks.map .write ∧
    codec.fromSlice data = .ok m ∧ d = afterMeta req m chunks.flatten

theorem live_process {req : AppRequest} {seen : List Frame} {d d' : AppReadDispatch} {f : Frame}
    (hl : Live codec req seen d) (h : d.process codec f = .next d') :
    Live codec req (seen ++ [f]) d' := by
  unfold Live at hl ⊢
  obtain ⟨data, rfl, ⟨hb, m, resp, hm, hr, rfl⟩ | ⟨body, hb, rfl⟩⟩ := process_eq_next codec h
  · rcases hl with ⟨rfl, rfl⟩ | ⟨_, _, _, -, -, rfl⟩
    · cases hr
      exact .inr ⟨data, m, [], rfl, hm, rfl⟩
    · cases hb
  · rcases hl with ⟨-, rfl⟩ | ⟨data', m, chunks, rfl, hm, rfl⟩
    · cases hb
    · cases hb
      exact .inr ⟨data', m, chunks ++ [data], by simp, hm, by simp [afterMeta]⟩

theorem live_init (req : AppRequest) : Live codec req [] (init req) := Or.inl ⟨rfl, rfl⟩

theorem feed_live {req : AppRequest} {seen : List Frame} {d : AppReadDispatch}
    (hl : Live codec req seen d) (fs : List Frame) :
    (∀ r, d.feed codec fs = .replied r → ∃ pre f rest d', fs = pre ++ f :: rest ∧
      Live codec req (seen ++ pre) d' ∧ d'.process codec f = .replied r) ∧
    (∀ d', d.feed codec fs = .next d' → Live codec req (seen ++ fs) d') := by
  induction fs generalizing seen d with
  | nil => exact ⟨fun _ h => (nomatch h), fun _ h => by cases h; simpa using hl⟩
  | cons f fs ih =>
    rw [feed]
    cases hp : d.process codec f with
    | next d₁ =>
      have hf := ih (live_process codec hl hp)
      refine ⟨fun r h => ?_, fun d' h => by simpa using hf.2 d' h⟩
      obtain ⟨pre, g, rest, d', rfl, hl', hg⟩ := hf.1 r h
      exact ⟨f :: pre, g, rest, d', rfl, by simpa using hl', hg⟩
    | replied r =>
      exact ⟨fun _ h => ⟨[], f, fs, d, rfl, by simpa using hl, hp.trans h⟩, fun _ h => (nomatch h)⟩
    | panicked => exact ⟨fun _ h => (nomatch h), fun _ h => (nomatch h)⟩

/-- Every reply a fresh dispatcher sends over a stream: the 500 of a bad meta frame or an early
`close`, the reply of a backend error, or what `close` makes of the meta frame and chunks. -/
theorem feed_init_reply {req : AppRequest} {fs : List Frame} {r : Response × Nat}
    (h : (init req).feed codec fs = .replied (some r)) :
    (∃ data err rest, fs = .write data :: rest ∧ codec.fromSlice data = .error err ∧
      r = failure req.trace err) ∨
    (∃ rest, fs = .close :: rest ∧
      r = failure req.trace "received `close` event without prior meta info") ∨
    (∃ pre e rest, fs = pre ++ .error e :: rest ∧ e.isQueueFull = false ∧
      r = errorReply req.trace e) ∨
    ∃ data m, ∃ chunks : List Bytes, ∃ rest, fs = .write data :: (chunks.map .write ++ .close :: rest) ∧
      codec.fromSlice data = .ok m ∧
      r = closeReply codec req.frame.method (applyMeta req.trace m Response.new) chunks.flatten := by
  obtain ⟨pre, f, rest, d, rfl, hl, hp⟩ := (feed_live codec (live_init codec req) fs).1 _ h
  rcases hl with ⟨hpre, rfl⟩ | ⟨data, m, chunks, hpre, hm, rfl⟩ <;>
    rw [List.nil_append] at hpre <;> subst hpre
  · rcases process_eq_replied_some codec hp with
      ⟨data, err, rfl, -, he, rfl⟩ | ⟨rfl, ⟨_, _, hb, -, -⟩ | ⟨-, rfl⟩⟩ | ⟨e, rfl, hq, rfl⟩
    · exact .inl ⟨data, err, rest, rfl, he, rfl⟩
    · cases hb
    · exact .inr (.inl ⟨rest, rfl, rfl⟩)
    · exact .inr (.inr (.inl ⟨[], e, rest, rfl, hq, rfl⟩))
  · rcases process_eq_replied_some codec hp with
      ⟨_, _, -, hb, -, -⟩ | ⟨rfl, ⟨_, _, hb, hr, rfl⟩ | ⟨hb, -⟩⟩ | ⟨e, rfl, hq, rfl⟩
    · cases hb
    · cases hb
      cases hr
      exact .inr (.inr (.inr ⟨data, m, chunks, rest, rfl, hm, rfl⟩))
    · cases hb
    · exact .inr (.inr (.inl ⟨_, e, rest, rfl, hq, rfl⟩))

/-- The streams a fresh dispatcher answers `None`: the queue-full error as the first frame, or
after a meta frame that decodes and data chunks. -/
def Retried (frames : List Frame) : Prop :=
  ∃ pre t rest, frames = pre ++ .error (.service 0x52ff 1 t) :: rest ∧
    (pre = [] ∨ ∃ data m, ∃ chunks : List Bytes, pre = .write data :: chunks.map .write ∧
      codec.fromSlice data = .ok m)

theorem feed_init_eq_replied_none (req : AppRequest) {fs : List Frame} :
    (init req).feed codec fs = .replied none ↔ Retried codec fs := by
  constructor
  · intro h
    obtain ⟨pre, f, rest, d, rfl, hl, hp⟩ := (feed_live codec (live_init codec req) fs).1 _ h
    obtain ⟨t, rfl⟩ := (process_eq_replied_none codec).mp hp
    rw [List.nil_append] at hl
    rcases hl with ⟨hpre, -⟩ | ⟨data, m, chunks, hpre, hm, -⟩
    exacts [⟨pre, t, rest, rfl, .inl hpre⟩, ⟨pre, t, rest, rfl, .inr ⟨data, m, chunks, hpre, hm⟩⟩]
  · rintro ⟨pre, t, rest, rfl, rfl | ⟨data, m, chunks, rfl, hm⟩⟩
    · rfl
    · rw [feed_append, feed_meta_chunks codec req hm]
      rfl

def RequestIdFrom (trace : UInt64) (frames : List Frame) (v : Option Item) : Prop :=
  v = some (.typed (.xRequestId trace)) ∨
  ∃ m e, metaOf codec frames = some m ∧
    m.headers.reverse.find? (fun e => headerKey e.1 = headerKey "X-Request-Id") = some e ∧
    v = some (.raw [utf8 e.2])

@[simp] theorem requestId_failure (trace : UInt64) (text : String) :
    (failure trace text).1.requestId? = some (.typed (.xRequestId trace)) := by
  simp [failure]

@[simp] theorem requestId_errorReply (trace : UInt64) (e : CocaineError) :
    (errorReply trace e).1.requestId? = some (.typed (.xRequestId trace)) := by
  unfold errorReply
  split
  · split <;> simp
  · simp

@[simp] theorem requestId_discard (d : AppReadDispatch) (e : CocaineError) :
    (d.discard e).1.requestId? = some (.typed (.xRequestId d.trace)) := by
  simp [discard]

@[simp] theorem requestId_closeReply (method : Method) (resp : Response) (body : Bytes) :
    (closeReply codec method resp body).1.requestId? = resp.requestId? := by
  rw [closeReply_eq]
  split <;> rfl

theorem requestId_feed {req : AppRequest} {fs : List Frame} {r : Response × Nat}
    (h : (init req).feed codec fs = .replied (some r)) :
    RequestIdFrom codec req.trace fs r.1.requestId? := by
  rcases feed_init_reply codec h with
    ⟨_, _, _, -, -, rfl⟩ | ⟨_, -, rfl⟩ | ⟨_, _, _, -, -, rfl⟩ | ⟨data, m, _, _, rfl, hm, rfl⟩
  · exact .inl (requestId_failure _ _)
  · exact .inl (requestId_failure _ _)
  · exact .inl (requestId_errorReply _ _)
  · rw [requestId_closeReply, requestId_applyMeta]
    split
    · exact .inr ⟨m, _, metaOf_write codec hm _, ‹_›, rfl⟩
    · exact .inl rfl

theorem valid_metaStatus (code : UInt32) : (metaStatus code).Valid := by
  unfold metaStatus StatusCode.tryFrom
  split_ifs with h
  · exact h
  · decide

theorem wellFormed_failure (trace : UInt64) (text : String) : WellFormed (failure trace text) :=
  ⟨show StatusCode.Valid ⟨500⟩ by decide, (length_utf8 text).symm⟩

theorem wellFormed_errorReply (trace : UInt64) (e : CocaineError) :
    WellFormed (errorReply trace e) := by
  have h := wellFormed_failure trace e.text
  cases e <;> simp only [errorReply]
  · split
    · exact ⟨h.valid, h.sized⟩
    · exact h
  · exact h

theorem wellFormed_discard (d : AppReadDispatch) (e : CocaineError) : WellFormed (d.discard e) := by
  refine ⟨?_, (length_utf8 e.text).symm⟩
  cases e <;> simp only [discard, Response.withBody_status, Response.withHeader_status,
    Response.withStatus_status]
  · split <;> decide
  · decide

theorem wellFormed_closeReply {resp : Response} (hb : resp.body = none) (hv : resp.status.Valid)
    (method : Method) (body : Bytes) : WellFormed (closeReply codec method resp body) := by
  rw [closeReply_eq]
  split <;> exact ⟨hv, by simp [hb]⟩

theorem wellFormed_feed {req : AppRequest} {fs : List Frame} {r : Response × Nat}
    (h : (init req).feed codec fs = .replied (some r)) : WellFormed r := by
  rcases feed_init_reply codec h with
    ⟨_, _, _, -, -, rfl⟩ | ⟨_, -, rfl⟩ | ⟨_, _, _, -, -, rfl⟩ | ⟨_, m, _, _, -, -, rfl⟩
  · exact wellFormed_failure _ _
  · exact wellFormed_failure _ _
  · exact wellFormed_errorReply _ _
  · exact wellFormed_closeReply codec (by simp) (by simpa using valid_metaStatus m.code) _ _

def StatusFrom (frames : List Frame) (s : StatusCode) : Prop :=
  ∃ m, metaOf codec frames = some m ∧ s = metaStatus m.code

@[simp] theorem status_failure (trace : UInt64) (text : String) :
    (failure trace text).1.status = .internalServerError := rfl

@[simp] theorem status_errorReply (trace : UInt64) (e : CocaineError) :
    (errorReply trace e).1.status = .internalServerError := by
  unfold errorReply
  split
  · split <;> rfl
  · rfl

@[simp] theorem status_closeReply (method : Method) (resp : Response) (body : Bytes) :
    (closeReply codec method resp body).1.status = resp.status := by
  rw [closeReply_eq]
  split <;> rfl

theorem status_discard (d : AppReadDispatch) (e : CocaineError) :
    (d.discard e).1.status = .internalServerError ∨
      (d.discard e).1.status = .serviceUnavailable ∧ ∃ t, e = .service 10 1 t := by
  cases e with
  | service category code t =>
    simp only [discard, Response.withBody_status, Response.withHeader_status,
      Response.withStatus_status]
    split_ifs with h
    · exact .inr ⟨rfl, t, by rw [h.1, h.2]⟩
    · exact .inl rfl
  | other t => exact .inl rfl

/-- Over a whole stream: every reply's status is 500 or the meta frame's; the `200` of
`Response::new` never goes out on its own. -/
theorem status_feed {req : AppRequest} {fs : List Frame} {r : Response × Nat}
    (h : (init req).feed codec fs = .replied (some r)) :
    r.1.status = .internalServerError ∨ StatusFrom codec fs r.1.status := by
  rcases feed_init_reply codec h with
    ⟨_, _, _, -, -, rfl⟩ | ⟨_, -, rfl⟩ | ⟨_, _, _, -, -, rfl⟩ | ⟨data, m, _, _, rfl, hm, rfl⟩
  · exact .inl rfl
  · exact .inl rfl
  · exact .inl (status_errorReply _ _)
  · exact .inr ⟨m, metaOf_write codec hm _, by simp⟩

/-- Where a response header may come from: a typed header of the proxy, the mark `vicodyn`
only after a service error of category `0x54ff`, or an entry of the stream's meta frame. -/
def HeaderFrom (frames : List Frame) (e : String × Item) : Prop :=
  (∃ h, e = (h.headerName, .typed h) ∧ ∀ o, h = .xErrorGeneratedBy o →
    o = "vicodyn" ∧ ∃ code t, .error (.service 0x54ff code t) ∈ frames) ∨
  ∃ m v, metaOf codec frames = some m ∧ (e.1, v) ∈ m.headers ∧ e.2 = .raw [utf8 v]

def HeadersFrom (frames : List Frame) (resp : Response) : Prop :=
  ∀ e ∈ resp.headers.entries, HeaderFrom codec frames e

theorem headerFrom_typed {fs : List Frame} (h : Typed) (hh : ∀ o, h ≠ .xErrorGeneratedBy o) :
    HeaderFrom codec fs (h.headerName, .typed h) :=
  .inl ⟨h, rfl, fun o ho => absurd ho (hh o)⟩

theorem headersFrom_withHeader {fs : List Frame} {resp : Response} {h : Typed}
    (hr : HeadersFrom codec fs resp) (hh : HeaderFrom codec fs (h.headerName, .typed h)) :
    HeadersFrom codec fs (resp.withHeader h) := fun e he =>
  (mem_insertEntry he).elim (fun he => he ▸ hh) (hr e)

theorem headersFrom_setRawAll {fs : List Frame} {m : ResponseMeta}
    (hm : metaOf codec fs = some m) (hs : List (String × String))
    (hsub : ∀ p ∈ hs, p ∈ m.headers) {resp : Response} (hr : HeadersFrom codec fs resp) :
    HeadersFrom codec fs (setRawAll resp hs) := by
  induction hs generalizing resp with
  | nil => exact hr
  | cons p hs ih =>
    refine ih (fun q hq => hsub q (List.mem_cons_of_mem p hq)) fun e he => ?_
    rcases mem_insertEntry he with rfl | he
    exacts [.inr ⟨m, p.2, hm, hsub p (List.mem_cons_self p hs), rfl⟩, hr e he]

theorem headersFrom_failure (fs : List Frame) (trace : UInt64) (text : String) :
    HeadersFrom codec fs (failure trace text).1 :=
  headersFrom_withHeader codec (fun _ h => nomatch h) (headerFrom_typed codec _ fun _ => nofun)

theorem headersFrom_errorReply {fs : List Frame} (trace : UInt64) {e : CocaineError}
    (he : .error e ∈ fs) : HeadersFrom codec fs (errorReply trace e).1 := by
  unfold errorReply
  split
  · split
    · refine headersFrom_withHeader codec (headersFrom_failure codec fs _ _) (.inl ⟨_, rfl, ?_⟩)
      rintro o ⟨⟩
      exact ⟨rfl, _, _, by rwa [← ‹_ = 0x54ff›]⟩
    · exact headersFrom_failure codec fs _ _
  · exact headersFrom_failure codec fs _ _

theorem headersFrom_discard (fs : List Frame) (d : AppReadDispatch) (e : CocaineError) :
    HeadersFrom codec fs (d.discard e).1 :=
  headersFrom_withHeader codec (fun _ h => nomatch h) (headerFrom_typed codec _ fun _ => nofun)

theorem headersFrom_closeReply {fs : List Frame} {resp : Response} (hr : HeadersFrom codec fs resp)
    (method : Method) (body : Bytes) : HeadersFrom codec fs (closeReply codec method resp body).1 := by
  rw [closeReply_eq]
  split <;> exact hr

theorem headers_feed {req : AppRequest} {fs : List Frame} {r : Response × Nat}
    (h : (init req).feed codec fs = .replied (some r)) : HeadersFrom codec fs r.1 := by
  rcases feed_init_reply codec h with
    ⟨_, _, _, -, -, rfl⟩ | ⟨_, -, rfl⟩ | ⟨pre, e, rest, rfl, -, rfl⟩ | ⟨data, m, _, _, rfl, hm, rfl⟩
  · exact headersFrom_failure codec _ _ _
  · exact headersFrom_failure codec _ _ _
  · exact headersFrom_errorReply codec _ (by simp)
  · refine headersFrom_closeReply codec ?_ _ _
    refine headersFrom_setRawAll codec (metaOf_write codec hm _) _ (fun _ => id) ?_
    exact headersFrom_withHeader codec (fun _ h => nomatch h)
      (headerFrom_typed codec _ fun _ => nofun)

/-- Where a reply's body may come from: the chunks after the meta frame, never for HEAD nor a
204 or 304 of that frame, or the text of a bad meta frame, an early `close` or an error. -/
def BodyFrom (method : Method) (frames : List Frame) (b : Bytes) : Prop :=
  (∃ data m, ∃ chunks : List Bytes, ∃ rest,
    frames = .write data :: (chunks.map .write ++ .close :: rest) ∧ codec.fromSlice data = .ok m ∧
    method ≠ .head ∧ metaStatus m.code ≠ .noContent ∧ metaStatus m.code ≠ .notModified ∧
    b = chunks.flatten) ∨
  ∃ t, b = utf8 t ∧ ((∃ data rest, frames = .write data :: rest ∧ codec.fromSlice data = .error t) ∨
    t = "received `close` event without prior meta info" ∨ ∃ e, .error e ∈ frames ∧ t = e.text)

@[simp] theorem body_errorReply (trace : UInt64) (e : CocaineError) :
    (errorReply trace e).1.body = some (utf8 e.text) := by
  unfold errorReply
  split
  · split <;> rfl
  · rfl

theorem body_feed {req : AppRequest} {fs : List Frame} {r : Response × Nat}
    (h : (init req).feed codec fs = .replied (some r)) {b : Bytes} (hb : r.1.body = some b) :
    BodyFrom codec req.frame.method fs b := by
  rcases feed_init_reply codec h with
    ⟨data, err, rest, rfl, he, rfl⟩ | ⟨rest, rfl, rfl⟩ | ⟨pre, e, rest, rfl, -, rfl⟩ |
      ⟨data, m, chunks, rest, rfl, hm, rfl⟩
  · cases hb
    exact .inr ⟨err, rfl, .inl ⟨data, rest, rfl, he⟩⟩
  · cases hb
    exact .inr ⟨_, rfl, .inr (.inl rfl)⟩
  · rw [body_errorReply] at hb
    cases hb
    exact .inr ⟨e.text, rfl, .inr (.inr ⟨e, by simp, rfl⟩)⟩
  · rw [closeReply_eq] at hb
    split at hb
    · simp at hb
    · rename_i hn
      simp only [Bodiless, not_or, applyMeta_status] at hn
      simp only [Response.withBody_body, Option.some.injEq] at hb
      exact .inl ⟨data, m, chunks, rest, rfl, hm, hn.1, hn.2.1, hn.2.2.1, hb.symm⟩

theorem processTx_eq (d : AppReadDispatch) (f : Frame) :
    d.processTx codec f = (d.process codec f).onTx := by
  cases f <;> simp only [processTx, process] <;> split <;> (try split) <;> (try split) <;> rfl

theorem feedTx_eq (d : AppReadDispatch) (frames : List Frame) :
    d.feedTx codec frames = (d.feed codec frames).onTx := by
  induction frames generalizing d with
  | nil => rfl
  | cons f fs ih =>
    simp only [feedTx, feed, processTx_eq]
    cases d.process codec f with
    | next d' => dsimp only [Processed.onTx]; rw [ih]; cases d'.feed codec fs <;> rfl
    | replied r => rfl
    | panicked => rfl

theorem process_ne_panicked {d : AppReadDispatch} (h : d.response.isSome) (f : Frame) :
    d.process codec f ≠ .panicked := by
  obtain ⟨resp, hr⟩ := Option.isSome_iff_exists.mp h
  cases f <;> simp only [process, hr] <;> split <;> (try split) <;> simp

theorem response_of_process {d d' : AppReadDispatch} {f : Frame}
    (h : d.process codec f = .next d') (hr : d.response.isSome) : d'.response.isSome := by
  obtain ⟨data, -, ⟨-, m, resp, -, -, rfl⟩ | ⟨body, -, rfl⟩⟩ := process_eq_next codec h
  · rfl
  · exact hr

theorem feed_ne_panicked {d : AppReadDispatch} (h : d.response.isSome) (frames : List Frame) :
    d.feed codec frames ≠ .panicked := by
  induction frames generalizing d with
  | nil => exact Processed.noConfusion
  | cons f fs ih =>
    rw [feed]
    cases hp : d.process codec f with
    | next d' => exact ih (response_of_process codec hp h)
    | replied r => exact Processed.noConfusion
    | panicked => exact absurd hp (process_ne_panicked codec h f)

/-- A fresh dispatcher fed any stream never panics, and sends on `tx` once: at `None`, or at the
`discard` of a dispatcher still answering `Some(self)`. -/
theorem feedTx_init (req : AppRequest) (frames : List Frame) :
    ∃ sent res, (init req).feedTx codec frames = some (sent, res) ∧
      match res with
      | some d => sent = [] ∧ ∀ e, (d.discardTx e).length = 1
      | none => sent.length = 1 := by
  rw [feedTx_eq]
  cases h : (init req).feed codec frames with
  | next d => exact ⟨[], some d, rfl, rfl, fun _ => rfl⟩
  | replied r => exact ⟨[r], none, rfl, rfl⟩
  | panicked => exact absurd h (@feed_ne_panicked codec (init req) rfl frames)

end AppReadDispatch

/-- What the backend does with an attempt's dispatcher: the frames it delivers, and the error
`discard` gets if the connection is cut while the dispatcher is still live. -/
structure Delivery where
  frames : List Frame
  cut : Option CocaineError

/-- What the attempt's receiver resolves to: the reply sent on `tx`, or `Canceled` once `tx`
is dropped unsent (a panic unwinds through it too). -/
def Delivery.outcome (codec : Codec) (req : AppRequest) (dl : Delivery) : Except Error Reply :=
  match (AppReadDispatch.init req).feed codec dl.frames with
  | .replied r => .ok r
  | .next d =>
    match dl.cut with
    | some e => .ok (some (d.discard e))
    | none => .error .canceled
  | .panicked => .error .canceled

/-- An attempt resolves to `None`, asking for a retry, exactly when its stream is `Retried`. -/
theorem Delivery.outcome_eq_ok_none {codec : Codec} {req : AppRequest} {dl : Delivery} :
    dl.outcome codec req = .ok none ↔ AppReadDispatch.Retried codec dl.frames := by
  refine Iff.trans ?_ (AppReadDispatch.feed_init_eq_replied_none codec req)
  unfold outcome
  split <;> (try split) <;> simp_all

/-- What an attempt resolves to a reply with: the reply its dispatcher sent over the stream, or
the one `discard` made when the connection was cut with the dispatcher still live. -/
theorem Delivery.outcome_eq_some {codec : Codec} {req : AppRequest} {dl : Delivery}
    {r : Response × Nat} (h : dl.outcome codec req = .ok (some r)) :
    (AppReadDispatch.init req).feed codec dl.frames = .replied (some r) ∨
    ∃ d e, (AppReadDispatch.init req).feed codec dl.frames = .next d ∧ dl.cut = some e ∧
      r = d.discard e := by
  unfold outcome at h
  split at h
  · cases h
    exact .inl ‹_›
  · split at h
    · cases h
      exact .inr ⟨_, _, ‹_›, ‹_›, rfl⟩
    · cases h
  · cases h

theorem Delivery.headers_outcome {codec : Codec} {req : AppRequest} {dl : Delivery}
    {r : Response × Nat} (h : dl.outcome codec req = .ok (some r)) :
    AppReadDispatch.HeadersFrom codec dl.frames r.1 := by
  rcases Delivery.outcome_eq_some h with hr | ⟨d, e, -, -, rfl⟩
  exacts [AppReadDispatch.headers_feed codec hr, AppReadDispatch.headersFrom_discard codec _ _ _]

theorem Delivery.outcome_of_queueFull {codec : Codec} {req : AppRequest} {dl : Delivery}
    {t : String} {rest : List Frame} (h : dl.frames = .error (.service 0x52ff 1 t) :: rest) :
    dl.outcome codec req = .ok none :=
  Delivery.outcome_eq_ok_none.mpr ⟨[], t, rest, h, .inl rfl⟩

theorem Delivery.outcome_of_relay {codec : Codec} {req : AppRequest} {dl : Delivery}
    {data : Bytes} {m : ResponseMeta} {chunks : List Bytes}
    (h : dl.frames = .write data :: chunks.map .write ++ [.close])
    (hm : codec.fromSlice data = .ok m) :
    dl.outcome codec req = .ok (some (AppReadDispatch.closeReply codec req.frame.method
      (AppReadDispatch.applyMeta req.trace m Response.new) chunks.flatten)) := by
  rw [outcome, h, AppReadDispatch.feed_append, AppReadDispatch.feed_meta_chunks codec req hm]
  rfl

theorem Delivery.requestId_outcome {codec : Codec} {req : AppRequest} {dl : Delivery}
    {r : Response × Nat} (h : dl.outcome codec req = .ok (some r)) :
    AppReadDispatch.RequestIdFrom codec req.trace dl.frames r.1.requestId? := by
  rcases Delivery.outcome_eq_some h with hr | ⟨d, e, hd, -, rfl⟩
  · exact AppReadDispatch.requestId_feed codec hr
  · refine .inl ?_
    rcases (AppReadDispatch.feed_live codec (AppReadDispatch.live_init codec req) _).2 d hd with
      ⟨-, rfl⟩ | ⟨_, _, _, -, -, rfl⟩ <;> exact AppReadDispatch.requestId_discard _ _

theorem Delivery.wellFormed_outcome {codec : Codec} {req : AppRequest} {dl : Delivery}
    {r : Response × Nat} (h : dl.outcome codec req = .ok (some r)) : WellFormed r := by
  rcases Delivery.outcome_eq_some h with hr | ⟨d, e, -, -, rfl⟩
  exacts [AppReadDispatch.wellFormed_feed codec hr, AppReadDispatch.wellFormed_discard _ _]

def Delivery.BodyFrom (codec : Codec) (method : Method) (dl : Delivery) (b : Bytes) : Prop :=
  AppReadDispatch.BodyFrom codec method dl.frames b ∨ ∃ e, dl.cut = some e ∧ b = utf8 e.text

theorem Delivery.body_outcome {codec : Codec} {req : AppRequest} {dl : Delivery}
    {r : Response × Nat} (h : dl.outcome codec req = .ok (some r)) {b : Bytes}
    (hb : r.1.body = some b) : dl.BodyFrom codec req.frame.method b := by
  rcases Delivery.outcome_eq_some h with hr | ⟨d, e, -, hc, rfl⟩
  · exact .inl (AppReadDispatch.body_feed codec hr hb)
  · cases hb
    exact .inr ⟨e, hc, rfl⟩

def Delivery.StatusFrom (codec : Codec) (dl : Delivery) (s : StatusCode) : Prop :=
  AppReadDispatch.StatusFrom codec dl.frames s ∨
    s = .serviceUnavailable ∧ ∃ t, dl.cut = some (.service 10 1 t)

theorem Delivery.status_outcome {codec : Codec} {req : AppRequest} {dl : Delivery}
    {r : Response × Nat} (h : dl.outcome codec req = .ok (some r)) :
    r.1.status = .internalServerError ∨ dl.StatusFrom codec r.1.status := by
  rcases Delivery.outcome_eq_some h with hr | ⟨d, e, -, hc, rfl⟩
  · exact (AppReadDispatch.status_feed codec hr).imp_right .inl
  · exact (AppReadDispatch.status_discard _ _).imp_right fun ⟨hs, t, he⟩ => .inr ⟨hs, t, he ▸ hc⟩

end CocaineHttpProxy
