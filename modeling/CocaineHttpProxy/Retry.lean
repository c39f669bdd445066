import CocaineHttpProxy.Dispatch

namespace CocaineHttpProxy

inductive Async (α : Type)
  | ready (a : α)
  | notReady

abbrev Poll (α : Type) := Except Error (Async α)

/-- The `Event::Service` that `make_future` posts to the pool, by what its closure captured:
the shared request, `attempts` as it read then, the headers, and the sampling draw. -/
structure Event where
  name : String
  request : AppRequest
  attempt : UInt32
  headers : List RawHeader
  manualVerbose : Option Bool

/-- The receiving end of attempt `index`'s one-shot channel (`rx.map_err`), with the polls it
still answers `NotReady`. -/
structure Receiver where
  index : Nat
  pending : Nat

/-- How the world answers the attempts, by index (0 for the first): the polls before the
receiver sees the reply, what it resolves to, and the `rand::random::<f64>()` drawn for it. -/
structure Schedule where
  delay : Nat → Nat
  outcome : Nat → Except Error Reply
  sample : Nat → Float

def Receiver.poll (sch : Schedule) (r : Receiver) : Poll Reply × Receiver :=
  match r.pending with
  | 0 => ((sch.outcome r.index).map .ready, r)
  | n + 1 => (.ok .notReady, ⟨r.index, n⟩)

/-- `AppWithSafeRetry`; `sent` is what it posted on the pool channel, oldest first. -/
structure AppWithSafeRetry where
  attempts : UInt32
  limit : UInt32
  request : AppRequest
  headers : List RawHeader
  current : Option Receiver
  tracingPolicy : TracingPolicy
  sent : List Event

namespace AppWithSafeRetry

def makeHeaders (headers : List RawHeader) (trace : UInt64) (g : Rng) : List RawHeader × Rng :=
  let headers := if headers.isEmpty then [] else headers
  let p := g.random
  (headers ++ [.traceId trace, .spanId p.1, .parentId trace], p.2)

/-- `manual_verbose`: under `Manual(v)`, whether attempt `i`'s draw is at most `v`. -/
def manualVerbose (sch : Schedule) (i : Nat) : TracingPolicy → Option Bool
  | .auto => none
  | .manual v => some (decide (sch.sample i ≤ v))

theorem manualVerbose_eq_some_true {sch : Schedule} {i : Nat} {policy : TracingPolicy} :
    manualVerbose sch i policy = some true ↔ ∃ p, policy = .manual p ∧ sch.sample i ≤ p := by
  cases policy <;> simp [manualVerbose]

def event (sch : Schedule) (s : AppWithSafeRetry) : Event :=
  ⟨s.request.service, s.request, s.attempts, s.headers,
    manualVerbose sch s.sent.length s.tracingPolicy⟩

def makeFuture (sch : Schedule) (s : AppWithSafeRetry) : AppWithSafeRetry × Receiver :=
  ({ s with sent := s.sent ++ [event sch s] }, ⟨s.sent.length, sch.delay s.sent.length⟩)

def new (sch : Schedule) (request : AppRequest) (headers : List RawHeader) (limit : UInt32)
    (tracingPolicy : TracingPolicy) (g : Rng) : AppWithSafeRetry × Rng :=
  let h := makeHeaders headers request.trace g
  let p := makeFuture sch ⟨1, limit, request, h.1, none, tracingPolicy, []⟩
  ({ p.1 with current := some p.2 }, h.2)

def exhausted (trace : UInt64) : Response × Nat :=
  let body := "Retry limit exceeded: queue is full"
  (((Response.new.withStatus .internalServerError).withHeader (.xRequestId trace)).withBody
    (utf8 body), body.utf8ByteSize)

@[simp] theorem requestId_exhausted (trace : UInt64) :
    (exhausted trace).1.requestId? = some (.typed (.xRequestId trace)) := by
  simp [exhausted]

theorem wellFormed_exhausted (trace : UInt64) : WellFormed (exhausted trace) :=
  ⟨show StatusCode.Valid ⟨500⟩ by decide, (length_utf8 _).symm⟩

theorem attempts_lt_succ {a b : UInt32} (h : a < b) : (a + 1).toNat = a.toNat + 1 := by
  have h1 : a.toNat < b.toNat := h
  have h2 := b.toNat_lt_size
  simp [UInt32.toNat, UInt32.add_def, BitVec.toNat_add] at *
  omega

def retry (sch : Schedule) (s : AppWithSafeRetry) : AppWithSafeRetry :=
  let p := makeFuture sch { s with current := none }
  { p.1 with current := some p.2, attempts := p.1.attempts + 1 }

/-- `poll`; `none` is the panic of `current.take().unwrap()`. A retry polls the new attempt
at once, by the recursive call. -/
def poll (sch : Schedule) (s : AppWithSafeRetry) : Option (AppWithSafeRetry × Poll (Response × Nat)) :=
  match s.current with
  | none => none
  | some fut =>
    match fut.poll sch with
    | (.ok (.ready (some r)), _) => some ({ s with current := none }, .ok (.ready r))
    | (.ok (.ready none), _) =>
      if s.attempts < s.limit then poll sch (retry sch s)
      else some ({ s with current := none }, .ok (.ready (exhausted s.request.trace)))
    | (.ok .notReady, fut) => some ({ s with current := some fut }, .ok .notReady)
    | (.error e, _) => some ({ s with current := none }, .error e)
termination_by s.limit.toNat - s.attempts.toNat
decreasing_by
  simp_wf
  simp only [retry, makeFuture]
  rw [attempts_lt_succ ‹_›]
  have : s.attempts.toNat < s.limit.toNat := ‹s.attempts < s.limit›
  omega

/-- The executor: poll again after each `NotReady`, at most `fuel` times. -/
def drive (sch : Schedule) : Nat → AppWithSafeRetry → Option (AppWithSafeRetry × Poll (Response × Nat))
  | 0, s => some (s, .ok .notReady)
  | n + 1, s =>
    match poll sch s with
    | some (s', .ok .notReady) => drive sch n s'
    | r => r

/-- `poll` with room for at most `k` nested calls of itself: `none` when the retry branch would
need one more. -/
def pollWithin (sch : Schedule) (k : Nat) (s : AppWithSafeRetry) :
    Option (Option (AppWithSafeRetry × Poll (Response × Nat))) :=
  match s.current with
  | none => some none
  | some fut =>
    match fut.poll sch with
    | (.ok (.ready (some r)), _) => some (some ({ s with current := none }, .ok (.ready r)))
    | (.ok (.ready none), _) =>
      if s.attempts < s.limit then
        if k = 0 then none else pollWithin sch (k - 1) (retry sch s)
      else some (some ({ s with current := none }, .ok (.ready (exhausted s.request.trace))))
    | (.ok .notReady, fut) => some (some ({ s with current := some fut }, .ok .notReady))
    | (.error e, _) => some (some ({ s with current := none }, .error e))
termination_by k
decreasing_by omega

variable {sch : Schedule} {s : AppWithSafeRetry}

@[simp] theorem retry_attempts : (retry sch s).attempts = s.attempts + 1 := rfl
@[simp] theorem retry_limit : (retry sch s).limit = s.limit := rfl
@[simp] theorem retry_request : (retry sch s).request = s.request := rfl
@[simp] theorem retry_headers : (retry sch s).headers = s.headers := rfl
@[simp] theorem retry_tracingPolicy : (retry sch s).tracingPolicy = s.tracingPolicy := rfl
@[simp] theorem retry_sent : (retry sch s).sent = s.sent ++ [event sch s] := rfl
@[simp] theorem retry_current :
    (retry sch s).current = some ⟨s.sent.length, sch.delay s.sent.length⟩ := rfl

theorem poll_of_current_none (h : s.current = none) : poll sch s = none := by
  rw [poll, h]

theorem poll_of_pending {i p : Nat} (h : s.current = some ⟨i, p + 1⟩) :
    poll sch s = some ({ s with current := some ⟨i, p⟩ }, .ok .notReady) := by
  rw [poll, h]; rfl

theorem poll_of_some {i : Nat} {r : Response × Nat} (h : s.current = some ⟨i, 0⟩)
    (ho : sch.outcome i = .ok (some r)) :
    poll sch s = some ({ s with current := none }, .ok (.ready r)) := by
  rw [poll, h]; simp [Receiver.poll, ho, Except.map]

theorem poll_of_error {i : Nat} {e : Error} (h : s.current = some ⟨i, 0⟩)
    (ho : sch.outcome i = .error e) :
    poll sch s = some ({ s with current := none }, .error e) := by
  rw [poll, h]; simp [Receiver.poll, ho, Except.map]

theorem poll_of_retry {i : Nat} (h : s.current = some ⟨i, 0⟩) (ho : sch.outcome i = .ok none)
    (hl : s.attempts < s.limit) : poll sch s = poll sch (retry sch s) := by
  rw [poll, h]; simp [Receiver.poll, ho, Except.map, hl]

theorem poll_of_exhausted {i : Nat} (h : s.current = some ⟨i, 0⟩)
    (ho : sch.outcome i = .ok none) (hl : ¬ s.attempts < s.limit) :
    poll sch s = some ({ s with current := none }, .ok (.ready (exhausted s.request.trace))) := by
  rw [poll, h]; simp [Receiver.poll, ho, Except.map, hl]

/-- Between polls of a live future: `1 ≤ attempts ≤ limit`, `attempts` counts the attempts
posted, and `current` is the newest one's receiver. -/
structure Pending (s : AppWithSafeRetry) : Prop where
  one_le : 1 ≤ s.attempts.toNat
  le_limit : s.attempts.toNat ≤ s.limit.toNat
  count : s.attempts.toNat = s.sent.length
  current : ∃ p, s.current = some ⟨s.sent.length - 1, p⟩

theorem pending_retry (hs : Pending s) (hl : s.attempts < s.limit) : Pending (retry sch s) := by
  have h := attempts_lt_succ hl
  have hl' : s.attempts.toNat < s.limit.toNat := hl
  have := hs.count
  exact ⟨by simp [h], by simp [h]; omega, by simp [h]; omega, ⟨sch.delay s.sent.length, by simp⟩⟩

theorem pending_attempt (hs : Pending s) {p : Nat} :
    Pending { s with current := some ⟨s.sent.length - 1, p⟩ } :=
  ⟨hs.one_le, hs.le_limit, hs.count, ⟨p, rfl⟩⟩

theorem pending_new {request : AppRequest} {headers : List RawHeader} {limit : UInt32}
    {policy : TracingPolicy} {g : Rng} (hl : 1 ≤ limit.toNat) :
    Pending (new sch request headers limit policy g).1 :=
  ⟨le_refl _, hl, rfl, ⟨_, rfl⟩⟩

def decided : Except Error Reply → Option (Poll (Response × Nat))
  | .ok (some r) => some (.ok (.ready r))
  | .ok none => none
  | .error e => some (.error e)

theorem decided_eq_none {x : Except Error Reply} : decided x = none ↔ x = .ok none := by
  rcases x with _ | _ | _ <;> simp [decided]

theorem decided_eq_some {x : Except Error Reply} {res : Poll (Response × Nat)} :
    decided x = some res ↔
      (∃ r, x = .ok (some r) ∧ res = .ok (.ready r)) ∨ ∃ e, x = .error e ∧ res = .error e := by
  rcases x with e | _ | r <;> simp [decided, eq_comm]

theorem poll_of_decided {i : Nat} {res : Poll (Response × Nat)} (h : s.current = some ⟨i, 0⟩)
    (hd : decided (sch.outcome i) = some res) :
    poll sch s = some ({ s with current := none }, res) := by
  rcases ho : sch.outcome i with e | _ | r <;> rw [ho] at hd
  · obtain rfl : Except.error e = res := Option.some.inj hd
    exact poll_of_error h ho
  · exact absurd hd (by simp [decided])
  · obtain rfl : Except.ok (.ready r) = res := Option.some.inj hd
    exact poll_of_some h ho

theorem decided_ne_notReady {x : Except Error Reply} {res : Poll (Response × Nat)}
    (h : decided x = some res) : res ≠ .ok .notReady := by
  rcases x with _ | _ | _ <;> simp only [decided, Option.some.injEq, reduceCtorEq] at h <;>
    (subst h; simp)

theorem Pending.poll_induction {sch : Schedule}
    {motive : (s : AppWithSafeRetry) → Pending s → Prop}
    (pending : ∀ s p (hs : Pending s), s.current = some ⟨s.sent.length - 1, p + 1⟩ → motive s hs)
    (decides : ∀ s res (hs : Pending s), s.current = some ⟨s.sent.length - 1, 0⟩ →
      decided (sch.outcome (s.sent.length - 1)) = some res → motive s hs)
    (exhausts : ∀ s (hs : Pending s), s.current = some ⟨s.sent.length - 1, 0⟩ →
      sch.outcome (s.sent.length - 1) = .ok none → ¬ s.attempts < s.limit → motive s hs)
    (retries : ∀ s (hs : Pending s), s.current = some ⟨s.sent.length - 1, 0⟩ →
      sch.outcome (s.sent.length - 1) = .ok none → (hl : s.attempts < s.limit) →
      motive (retry sch s) (pending_retry hs hl) → motive s hs)
    (s : AppWithSafeRetry) (hs : Pending s) : motive s hs := by
  obtain ⟨p, hc⟩ := hs.current
  cases p with
  | succ p => exact pending s p hs hc
  | zero =>
    cases hdec : decided (sch.outcome (s.sent.length - 1)) with
    | some res => exact decides s res hs hc hdec
    | none =>
      have ho := decided_eq_none.mp hdec
      by_cases hl : s.attempts < s.limit
      · exact retries s hs hc ho hl (Pending.poll_induction pending decides exhausts retries _ _)
      · exact exhausts s hs hc ho hl
termination_by s.limit.toNat - s.attempts.toNat
decreasing_by
  simp_wf
  rw [attempts_lt_succ hl]
  have : s.attempts.toNat < s.limit.toNat := hl
  omega

theorem pending_of_poll {sch : Schedule} {s s' : AppWithSafeRetry} (hs : Pending s)
    (h : poll sch s = some (s', .ok .notReady)) : Pending s' := by
  induction s, hs using Pending.poll_induction generalizing s' with
  | pending s p hs hc => rw [poll_of_pending hc] at h; cases h; exact pending_attempt hs
  | decides s res _ hc hd =>
    rw [poll_of_decided hc hd] at h; cases h; exact absurd rfl (decided_ne_notReady hd)
  | exhausts s _ hc ho hl => rw [poll_of_exhausted hc ho hl] at h; cases h
  | retries s _ hc ho hl ih => rw [poll_of_retry hc ho hl] at h; exact ih h

theorem exists_poll {sch : Schedule} {s : AppWithSafeRetry} (hs : Pending s) :
    ∃ s' res, poll sch s = some (s', res) ∧ s'.limit = s.limit ∧ 1 ≤ s'.attempts.toNat ∧
      s'.attempts.toNat ≤ s'.limit.toNat ∧ s'.attempts.toNat = s'.sent.length := by
  induction s, hs using Pending.poll_induction with
  | pending s p hs hc => exact ⟨_, _, poll_of_pending hc, rfl, hs.one_le, hs.le_limit, hs.count⟩
  | decides s res hs hc hd =>
    exact ⟨_, _, poll_of_decided hc hd, rfl, hs.one_le, hs.le_limit, hs.count⟩
  | exhausts s hs hc ho hl =>
    exact ⟨_, _, poll_of_exhausted hc ho hl, rfl, hs.one_le, hs.le_limit, hs.count⟩
  | retries s _ hc ho hl ih => rw [poll_of_retry hc ho hl]; exact ih

theorem pollWithin_of_le {sch : Schedule} {s : AppWithSafeRetry} {k : Nat}
    (hk : s.limit.toNat - s.attempts.toNat ≤ k) : pollWithin sch k s = some (poll sch s) := by
  rw [pollWithin.eq_def, poll]
  split <;> (try split) <;> (try split) <;> try rfl
  -- only the retry branch is left: the budget holds the nested call
  have : s.attempts.toNat < s.limit.toNat := ‹_›
  obtain ⟨k, rfl⟩ : ∃ k', k = k' + 1 := ⟨k - 1, by omega⟩
  exact pollWithin_of_le (by simp only [retry_limit, retry_attempts, attempts_lt_succ ‹_›]; omega)
termination_by s.limit.toNat - s.attempts.toNat
decreasing_by
  simp_wf
  rw [attempts_lt_succ ‹_›]
  omega

theorem drive_pending {i p : Nat} (h : s.current = some ⟨i, p⟩) (n : Nat) :
    drive sch (p + n) s = drive sch n { s with current := some ⟨i, 0⟩ } := by
  induction p generalizing s with
  | zero => obtain ⟨⟩ := s; cases h; rw [Nat.zero_add]
  | succ p ih =>
    rw [show p + 1 + n = p + n + 1 by omega, drive, poll_of_pending h]
    exact ih rfl

theorem drive_congr {s' : AppWithSafeRetry} (h : poll sch s = poll sch s') (n : Nat) :
    drive sch (n + 1) s = drive sch (n + 1) s' := by
  simp only [drive, h]

theorem pending_of_drive {s' : AppWithSafeRetry} (hs : Pending s) {n : Nat}
    (h : drive sch n s = some (s', .ok .notReady)) : Pending s' := by
  induction n generalizing s with
  | zero => cases h; exact hs
  | succ n ih =>
    rw [AppWithSafeRetry.drive] at h
    rcases hp : poll sch s with _ | ⟨s'', e | a | _⟩ <;> rw [hp] at h <;> try cases h
    exact ih (pending_of_poll hs hp) h

/-- The law of the retries from attempt `i` with `left` more permitted: the first outcome that
is not `None` ends the run, a `None` at the last permitted one the 500; with the attempts made. -/
def retrySpec (trace : UInt64) (o : Nat → Except Error Reply) :
    Nat → Nat → Nat × Poll (Response × Nat)
  | i, 0 => ((i + 1), ((decided (o i)).getD (.ok (.ready (exhausted trace)))))
  | i, left + 1 =>
    match decided (o i) with
    | some res => (i + 1, res)
    | none => retrySpec trace o (i + 1) left

/-- The law of the retries over a whole run: the first of the first `limit` attempts whose
outcome is not `None` ends it with that outcome; when all are `None`, the 500 ends it. -/
def expected (trace : UInt64) (o : Nat → Except Error Reply) (limit : Nat) :
    Nat × Poll (Response × Nat) :=
  ((List.range limit).findSome? fun j => (decided (o j)).map fun res => (j + 1, res)).getD
    (limit, .ok (.ready (exhausted trace)))

theorem retrySpec_eq (trace : UInt64) (o : Nat → Except Error Reply) (i left : Nat) :
    retrySpec trace o i left =
      ((List.range (left + 1)).findSome? fun j =>
        (decided (o (i + j))).map fun res => (i + j + 1, res)).getD
        (i + left + 1, .ok (.ready (exhausted trace))) := by
  induction left generalizing i with
  | zero =>
    rw [List.range_succ_eq_map, List.range_zero, List.map_nil]
    cases h : decided (o i) <;> simp [retrySpec, h]
  | succ left ih =>
    rw [List.range_succ_eq_map, List.findSome?_cons, List.findSome?_map, Nat.add_zero]
    cases h : decided (o i) with
    | some res => simp [retrySpec, h]
    | none =>
      have hf : ((fun j => (decided (o (i + j))).map fun res => (i + j + 1, res)) ∘ Nat.succ) =
          fun j => (decided (o (i + 1 + j))).map fun res => (i + 1 + j + 1, res) := by
        funext j
        simp only [Function.comp, Nat.succ_eq_add_one, show i + (j + 1) = i + 1 + j by omega]
      simp only [retrySpec, h, Nat.add_zero, Option.map_none', hf, ih,
        show i + (left + 1) + 1 = i + 1 + left + 1 by omega]

theorem retrySpec_of_decided {trace : UInt64} {o : Nat → Except Error Reply} {i : Nat}
    {res : Poll (Response × Nat)} (h : decided (o i) = some res) (left : Nat) :
    retrySpec trace o i left = (i + 1, res) := by
  cases left <;> simp [retrySpec, h]

theorem drive_of_poll {s' : AppWithSafeRetry} {res : Poll (Response × Nat)}
    (h : poll sch s = some (s', res)) (hres : res ≠ .ok .notReady) (m : Nat) :
    drive sch (m + 1) s = some (s', res) := by
  rw [drive, h]
  rcases res with _ | _ | _
  · rfl
  · rfl
  · exact absurd rfl hres

/-- Polling a live future until it is ready follows the law of the retries. -/
theorem drive_resolves {sch : Schedule} {s : AppWithSafeRetry} (hs : Pending s) :
    ∃ N, ∀ n, N ≤ n → ∃ s', drive sch n s =
      some (s', (retrySpec s.request.trace sch.outcome (s.sent.length - 1)
        (s.limit.toNat - s.attempts.toNat)).2) ∧
      s'.sent.length = (retrySpec s.request.trace sch.outcome (s.sent.length - 1)
        (s.limit.toNat - s.attempts.toNat)).1 := by
  obtain ⟨k, hk⟩ : ∃ k, s.limit.toNat - s.attempts.toNat = k := ⟨_, rfl⟩
  obtain ⟨p, hc⟩ := hs.current
  have hlen : s.sent.length - 1 + 1 = s.sent.length := by have := hs.one_le; have := hs.count; omega
  let s₀ : AppWithSafeRetry := { s with current := some ⟨s.sent.length - 1, 0⟩ }
  have hd : ∀ n, p < n → drive sch n s = drive sch (n - p - 1 + 1) s₀ := fun n hn => by
    rw [← drive_pending hc, show p + (n - p - 1 + 1) = n by omega]
  rw [hk]
  cases hdec : decided (sch.outcome (s.sent.length - 1)) with
  | some res =>
    refine ⟨p + 1, fun n hn => ⟨{ s with current := none }, ?_, ?_⟩⟩
    · rw [retrySpec_of_decided hdec, hd n (by omega),
        drive_of_poll (poll_of_decided rfl hdec) (decided_ne_notReady hdec)]
    · rw [retrySpec_of_decided hdec]; exact hlen.symm
  | none =>
    have ho := decided_eq_none.mp hdec
    cases k with
    | zero =>
      have hl : ¬ s.attempts < s.limit := fun h => by
        have : s.attempts.toNat < s.limit.toNat := h
        omega
      refine ⟨p + 1, fun n hn => ⟨{ s with current := none }, ?_, ?_⟩⟩
      · rw [hd n (by omega), drive_of_poll (@poll_of_exhausted sch s₀ _ rfl ho hl) (by simp)]
        simp [retrySpec, hdec]
      · simp [retrySpec, hdec, hlen]
    | succ k =>
      have hl : s.attempts < s.limit := by
        show s.attempts.toNat < s.limit.toNat
        omega
      have hs₁ : Pending (retry sch s₀) := pending_retry (pending_attempt hs) hl
      have hk₁ : (retry sch s₀).limit.toNat - (retry sch s₀).attempts.toNat = k := by
        show s.limit.toNat - (s.attempts + 1).toNat = k
        rw [attempts_lt_succ hl]
        omega
      obtain ⟨N, hN⟩ := @drive_resolves sch _ hs₁
      refine ⟨p + N + 1, fun n hn => ?_⟩
      obtain ⟨s', h1, h2⟩ := hN (n - p - 1 + 1) (by omega)
      refine ⟨s', ?_, ?_⟩
      · rw [hd n (by omega), drive_congr (@poll_of_retry sch s₀ _ rfl ho hl), h1, hk₁]
        simp [retrySpec, hdec, s₀, hlen]
      · rw [h2, hk₁]
        simp [retrySpec, hdec, s₀, hlen]
termination_by s.limit.toNat - s.attempts.toNat
decreasing_by
  show (retry sch s₀).limit.toNat - (retry sch s₀).attempts.toNat < s.limit.toNat - s.attempts.toNat
  omega

def eventAt (sch : Schedule) (s₀ : AppWithSafeRetry) (k : Nat) : Event :=
  ⟨s₀.request.service, s₀.request, (max k 1).toUInt32, s₀.headers,
    manualVerbose sch k s₀.tracingPolicy⟩

/-- What every state of a run from `s₀` keeps: the fields no poll writes, the events posted so
far, and that an attempt is retried only after a `None`. -/
structure Reach (sch : Schedule) (s₀ s : AppWithSafeRetry) : Prop where
  limit : s.limit = s₀.limit
  request : s.request = s₀.request
  headers : s.headers = s₀.headers
  tracingPolicy : s.tracingPolicy = s₀.tracingPolicy
  sent : s.sent = (List.range s.sent.length).map (eventAt sch s₀)
  retried : ∀ k, k + 1 < s.sent.length → sch.outcome k = .ok none
  le_limit : s.sent.length ≤ s₀.limit.toNat

theorem reach_current {s₀ : AppWithSafeRetry} (h : Reach sch s₀ s) (c : Option Receiver) :
    Reach sch s₀ { s with current := c } :=
  ⟨h.limit, h.request, h.headers, h.tracingPolicy, h.sent, h.retried, h.le_limit⟩

theorem reach_new {request : AppRequest} {headers : List RawHeader} {limit : UInt32}
    {policy : TracingPolicy} {g : Rng} (hl : 1 ≤ limit.toNat) :
    Reach sch (new sch request headers limit policy g).1 (new sch request headers limit policy g).1 :=
  ⟨rfl, rfl, rfl, rfl, rfl, fun k hk => absurd hk (by simp [new, makeFuture]), hl⟩

theorem reach_retry {s₀ : AppWithSafeRetry} (h : Reach sch s₀ s) (hs : Pending s)
    (ho : sch.outcome (s.sent.length - 1) = .ok none) (hl : s.attempts < s.limit) :
    Reach sch s₀ (retry sch s) := by
  have hc := hs.count
  have h1 := hs.one_le
  have hlt : s.attempts.toNat < s.limit.toNat := hl
  have he : event sch s = eventAt sch s₀ s.sent.length := by
    have ha : (max s.sent.length 1).toUInt32 = s.attempts := by
      apply UInt32.toNat.inj
      rw [show max s.sent.length 1 = s.attempts.toNat by omega]
      simp [Nat.toUInt32, UInt32.toNat, UInt32.ofNat]
    simp [event, eventAt, ha, h.request, h.headers, h.tracingPolicy]
  refine ⟨h.limit, h.request, h.headers, h.tracingPolicy, ?_, ?_, ?_⟩
  · simp only [retry_sent, List.length_append, List.length_singleton, List.range_succ,
      List.map_append, List.map_singleton]
    rw [← h.sent, he]
  · intro k hk
    simp only [retry_sent, List.length_append, List.length_singleton] at hk
    by_cases hk' : k + 1 < s.sent.length
    · exact h.retried k hk'
    · rw [show k = s.sent.length - 1 by omega]; exact ho
  · simp only [retry_sent, List.length_append, List.length_singleton]
    rw [← h.limit]; omega

theorem reach_of_poll {sch : Schedule} {s₀ s s' : AppWithSafeRetry} {res : Poll (Response × Nat)}
    (h : Reach sch s₀ s) (hs : Pending s) (hp : poll sch s = some (s', res)) : Reach sch s₀ s' := by
  induction s, hs using Pending.poll_induction with
  | pending s p _ hc => rw [poll_of_pending hc] at hp; cases hp; exact reach_current h _
  | decides s r _ hc hd => rw [poll_of_decided hc hd] at hp; cases hp; exact reach_current h _
  | exhausts s _ hc ho hl => rw [poll_of_exhausted hc ho hl] at hp; cases hp; exact reach_current h _
  | retries s hs hc ho hl ih =>
    rw [poll_of_retry hc ho hl] at hp
    exact ih (reach_retry h hs ho hl) hp

theorem reach_of_drive {s₀ s s' : AppWithSafeRetry} {res : Poll (Response × Nat)} {n : Nat}
    (h : Reach sch s₀ s) (hs : Pending s) (hd : drive sch n s = some (s', res)) :
    Reach sch s₀ s' := by
  induction n generalizing s with
  | zero => cases hd; exact h
  | succ n ih =>
    rw [drive] at hd
    rcases hp : poll sch s with _ | ⟨s'', e | a | _⟩ <;> rw [hp] at hd
    · cases hd
    · cases hd; exact reach_of_poll h hs hp
    · cases hd; exact reach_of_poll h hs hp
    · exact ih (reach_of_poll h hs hp) (pending_of_poll hs hp) hd

theorem expected_eq_retrySpec (trace : UInt64) (o : Nat → Except Error Reply) {limit : Nat}
    (hl : 1 ≤ limit) : expected trace o limit = retrySpec trace o 0 (limit - 1) := by
  rw [retrySpec_eq]
  simp [expected, Nat.sub_add_cancel hl]

theorem expected_of_first {trace : UInt64} {o : Nat → Except Error Reply} {k limit : Nat}
    {res : Poll (Response × Nat)} (hk : k < limit) (hn : ∀ j < k, o j = .ok none)
    (hd : decided (o k) = some res) : expected trace o limit = (k + 1, res) := by
  have key : ∀ left i, i ≤ k → k ≤ i + left → retrySpec trace o i left = (k + 1, res) := by
    intro left
    induction left with
    | zero =>
      intro i hi hki
      obtain rfl : i = k := by omega
      exact retrySpec_of_decided hd 0
    | succ left ih =>
      intro i hi hki
      rcases hi.lt_or_eq with hi | rfl
      · rw [retrySpec, decided_eq_none.mpr (hn i hi)]
        exact ih (i + 1) hi (by omega)
      · exact retrySpec_of_decided hd _
  rw [expected_eq_retrySpec _ _ (by omega)]
  exact key _ 0 (Nat.zero_le _) (by omega)

theorem expected_of_all_none {trace : UInt64} {o : Nat → Except Error Reply} {limit : Nat}
    (hn : ∀ j < limit, o j = .ok none) :
    expected trace o limit = (limit, .ok (.ready (exhausted trace))) := by
  rw [expected, List.findSome?_eq_none_iff.mpr fun j hj => by
    simp only [decided_eq_none.mpr (hn j (List.mem_range.mp hj)), Option.map_none']]
  rfl

/-- The two ways the law ends: the first of the first `limit` attempts that is not `None`
decides, or all of them are `None` and the 500 of the limit ends it. -/
theorem expected_cases (trace : UInt64) (o : Nat → Except Error Reply) (limit : Nat) :
    (∃ j < limit, (∀ i < j, o i = .ok none) ∧ ∃ res, decided (o j) = some res ∧
      expected trace o limit = (j + 1, res)) ∨
    ((∀ j < limit, o j = .ok none) ∧
      expected trace o limit = (limit, .ok (.ready (exhausted trace)))) := by
  induction limit with
  | zero => exact .inr ⟨fun _ h => absurd h (Nat.not_lt_zero _), rfl⟩
  | succ n ih =>
    rcases ih with ⟨j, hj, hn, res, hd, -⟩ | ⟨hn, -⟩
    · exact .inl ⟨j, by omega, hn, res, hd, expected_of_first (by omega) hn hd⟩
    cases hd : decided (o n) with
    | some res => exact .inl ⟨n, by omega, hn, res, hd, expected_of_first (by omega) hn hd⟩
    | none =>
      have hn' : ∀ j < n + 1, o j = .ok none := fun j hj => by
        rcases Nat.lt_succ_iff_lt_or_eq.mp hj with hj | rfl
        exacts [hn j hj, decided_eq_none.mp hd]
      exact .inr ⟨hn', expected_of_all_none hn'⟩

theorem drive_of_le {s s' : AppWithSafeRetry} {res : Poll (Response × Nat)} {n : Nat}
    (h : drive sch n s = some (s', res)) (hres : res ≠ .ok .notReady) {m : Nat} (hm : n ≤ m) :
    drive sch m s = some (s', res) := by
  induction n generalizing s m with
  | zero => cases h; exact absurd rfl hres
  | succ n ih =>
    obtain ⟨m, rfl⟩ : ∃ m', m = m' + 1 := ⟨m - 1, by omega⟩
    rw [drive] at h ⊢
    rcases hp : poll sch s with _ | ⟨s'', e | a | _⟩ <;> rw [hp] at h
    · exact h
    · exact h
    · exact h
    · exact ih h (by omega)

theorem expected_ne_notReady (trace : UInt64) (o : Nat → Except Error Reply) (limit : Nat) :
    (expected trace o limit).2 ≠ .ok .notReady := by
  unfold expected
  cases hf : (List.range limit).findSome? fun j => (decided (o j)).map fun res => (j + 1, res) with
  | none => simp
  | some p =>
    obtain ⟨j, -, hjp⟩ := List.exists_of_findSome?_eq_some hf
    obtain ⟨res, hres, rfl⟩ := Option.map_eq_some'.mp hjp
    exact decided_ne_notReady hres

theorem expected_ready {trace : UInt64} {o : Nat → Except Error Reply} {limit : Nat}
    {r : Response × Nat} (h : (expected trace o limit).2 = .ok (.ready r)) :
    r = exhausted trace ∨ ∃ j, (expected trace o limit).1 = j + 1 ∧ o j = .ok (some r) := by
  unfold expected at h
  cases hf : (List.range limit).findSome? fun j => (decided (o j)).map fun res => (j + 1, res) with
  | none =>
    rw [hf] at h
    cases h
    exact .inl rfl
  | some p =>
    rw [hf] at h
    rw [expected, hf]
    obtain ⟨j, -, hjp⟩ := List.exists_of_findSome?_eq_some hf
    refine .inr ⟨j, ?_⟩
    rcases ho : o j with e | _ | r' <;> rw [ho] at hjp <;> simp [decided] at hjp <;> subst hjp <;>
      cases h
    exact ⟨rfl, rfl⟩

/-- Polling a new `AppWithSafeRetry` until ready: it stays live, and resolves by the first of the
first `limit` attempts not `None`, or when all are with the 500 of the limit. -/
theorem drive_new (sch : Schedule) (request : AppRequest) (headers : List RawHeader)
    (limit : UInt32) (hl : 1 ≤ limit) (policy : TracingPolicy) (g : Rng) :
    (∀ n s, drive sch n (new sch request headers limit policy g).1 = some (s, .ok .notReady) →
      Pending s) ∧
    ∃ N, ∀ n, N ≤ n → ∃ s res,
      drive sch n (new sch request headers limit policy g).1 = some (s, res) ∧
      ((∃ j < limit.toNat, (∀ i < j, sch.outcome i = .ok none) ∧ s.sent.length = j + 1 ∧
          ((∃ r, sch.outcome j = .ok (some r) ∧ res = .ok (.ready r)) ∨
            ∃ e, sch.outcome j = .error e ∧ res = .error e)) ∨
        ((∀ j < limit.toNat, sch.outcome j = .ok none) ∧ s.sent.length = limit.toNat ∧
          ∃ resp, res = .ok (.ready (resp, "Retry limit exceeded: queue is full".utf8ByteSize)) ∧
            resp.status = .internalServerError ∧
            resp.headers.entries = [("X-Request-Id", .typed (.xRequestId request.trace))] ∧
            resp.body = some (utf8 "Retry limit exceeded: queue is full"))) := by
  have hl' : 1 ≤ limit.toNat := hl
  refine ⟨fun n s h => pending_of_drive (pending_new hl') h, ?_⟩
  obtain ⟨N, hN⟩ : ∃ N, ∀ n, N ≤ n → ∃ s, drive sch n (new sch request headers limit policy g).1 =
      some (s, (expected request.trace sch.outcome limit.toNat).2) ∧
      s.sent.length = (expected request.trace sch.outcome limit.toNat).1 := by
    rw [expected_eq_retrySpec _ _ hl']
    exact drive_resolves (pending_new hl')
  refine ⟨N, fun n hn => ?_⟩
  obtain ⟨s, hd, hlen⟩ := hN n hn
  refine ⟨s, _, hd, ?_⟩
  rcases expected_cases request.trace sch.outcome limit.toNat with
    ⟨j, hj, hb, res, hdec, he⟩ | ⟨hb, he⟩ <;> rw [he] at hlen ⊢
  · exact .inl ⟨j, hj, hb, hlen, decided_eq_some.mp hdec⟩
  · exact .inr ⟨hb, hlen, (exhausted request.trace).1, rfl, rfl, rfl, rfl⟩

theorem drive_new_limit_three :
    (1 : UInt32) ≤ 3 ∧
    (∀ n s, drive ⟨fun _ => 1, fun _ => .ok none, fun _ => 0⟩ n
      (new ⟨fun _ => 1, fun _ => .ok none, fun _ => 0⟩ ⟨"echo", "say", 7, ⟨.get, "/", .http11, [], []⟩⟩
        [] 3 .auto ⟨fun n => n.toUInt64, 0⟩).1 = some (s, .ok .notReady) → Pending s) ∧
    ∃ N, ∀ n, N ≤ n → ∃ s res, drive ⟨fun _ => 1, fun _ => .ok none, fun _ => 0⟩ n
      (new ⟨fun _ => 1, fun _ => .ok none, fun _ => 0⟩ ⟨"echo", "say", 7, ⟨.get, "/", .http11, [], []⟩⟩
        [] 3 .auto ⟨fun n => n.toUInt64, 0⟩).1 = some (s, res) ∧
      ((∃ j < (3 : UInt32).toNat, (∀ i < j, (Except.ok none : Except Error Reply) = .ok none) ∧
          s.sent.length = j + 1 ∧
          ((∃ r, (Except.ok none : Except Error Reply) = .ok (some r) ∧ res = .ok (.ready r)) ∨
            ∃ e, (Except.ok none : Except Error Reply) = .error e ∧ res = .error e)) ∨
        ((∀ j < (3 : UInt32).toNat, (Except.ok none : Except Error Reply) = .ok none) ∧
          s.sent.length = (3 : UInt32).toNat ∧
          ∃ resp, res = .ok (.ready (resp, "Retry limit exceeded: queue is full".utf8ByteSize)) ∧
            resp.status = .internalServerError ∧
            resp.headers.entries = [("X-Request-Id", .typed (.xRequestId 7))] ∧
            resp.body = some (utf8 "Retry limit exceeded: queue is full"))) :=
  ⟨by decide, drive_new ⟨fun _ => 1, fun _ => .ok none, fun _ => 0⟩
    ⟨"echo", "say", 7, ⟨.get, "/", .http11, [], []⟩⟩ [] 3 (by decide) .auto ⟨fun n => n.toUInt64, 0⟩⟩

/-- Every poll of a new `AppWithSafeRetry` before it is ready finds `current = Some`, panics at
no depth, and leaves `attempts` in `[1, limit]` counting the attempts posted. -/
theorem poll_never_panics (sch : Schedule) (request : AppRequest) (headers : List RawHeader)
    (limit : UInt32) (hl : 1 ≤ limit) (policy : TracingPolicy) (g : Rng) :
    ∀ n s, drive sch n (new sch request headers limit policy g).1 = some (s, .ok .notReady) →
      s.current.isSome ∧ ∃ s' res, poll sch s = some (s', res) ∧ 1 ≤ s'.attempts.toNat ∧
        s'.attempts.toNat ≤ limit.toNat ∧ s'.attempts.toNat = s'.sent.length := by
  have hl' : 1 ≤ limit.toNat := hl
  intro n s h
  have hs := pending_of_drive (pending_new hl') h
  obtain ⟨s', res, hp, hlim, h1, h2, h3⟩ := @exists_poll sch s hs
  obtain ⟨p, hc⟩ := hs.current
  refine ⟨by rw [hc]; rfl, s', res, hp, h1, ?_, h3⟩
  rwa [hlim, (reach_of_drive (reach_new hl') (pending_new hl') h).limit] at h2

theorem poll_never_panics_limit_three :
    (1 : UInt32) ≤ 3 ∧
    ∀ n s, drive ⟨fun _ => 1, fun _ => .ok none, fun _ => 0⟩ n
      (new ⟨fun _ => 1, fun _ => .ok none, fun _ => 0⟩ ⟨"echo", "say", 7, ⟨.get, "/", .http11, [], []⟩⟩
        [] 3 .auto ⟨fun n => n.toUInt64, 0⟩).1 = some (s, .ok .notReady) →
      s.current.isSome ∧ ∃ s' res, poll ⟨fun _ => 1, fun _ => .ok none, fun _ => 0⟩ s =
        some (s', res) ∧ 1 ≤ s'.attempts.toNat ∧ s'.attempts.toNat ≤ (3 : UInt32).toNat ∧
        s'.attempts.toNat = s'.sent.length :=
  ⟨by decide, poll_never_panics ⟨fun _ => 1, fun _ => .ok none, fun _ => 0⟩
    ⟨"echo", "say", 7, ⟨.get, "/", .http11, [], []⟩⟩ [] 3 (by decide) .auto ⟨fun n => n.toUInt64, 0⟩⟩

/-- `poll` returns after at most `limit - attempts` nested calls of itself, from any state and
with any schedule: allowed that many, it already answers as `poll`. -/
theorem pollWithin_limit_sub_attempts (sch : Schedule) (s : AppWithSafeRetry) :
    pollWithin sch (s.limit.toNat - s.attempts.toNat) s = some (poll sch s) :=
  pollWithin_of_le le_rfl

end AppWithSafeRetry

end CocaineHttpProxy
