import CocaineHttpProxy.Invoke

namespace CocaineHttpProxy

/-- `select` of two futures, each given by its answer after `t` polls: the first answer, the
left one's when both come at the same poll, since it is polled first. -/
def select {α : Type} (a b : Nat → Option α) : Nat → Option α
  | 0 => (a 0).orElse fun _ => b 0
  | t + 1 => (select a b t).orElse fun _ => (a (t + 1)).orElse fun _ => b (t + 1)

theorem findSome?_singleton {α β : Type} (f : α → Option β) (x : α) : [x].findSome? f = f x := by
  cases h : f x <;> simp [List.findSome?, h]

theorem findSome?_congr {α β : Type} {l : List α} {f g : α → Option β}
    (h : ∀ x ∈ l, f x = g x) : l.findSome? f = l.findSome? g := by
  induction l with
  | nil => rfl
  | cons x l ih =>
    simp only [List.findSome?, h x (List.mem_cons_self x l),
      ih fun y hy => h y (List.mem_cons_of_mem x hy)]

theorem select_succ_of_eq_some {α : Type} {a b : Nat → Option α} {t : Nat} {x : α}
    (h : select a b t = some x) : select a b (t + 1) = some x := by
  rw [select, h]
  rfl

theorem select_eq {α : Type} (a b : Nat → Option α) (t : Nat) :
    select a b t = (List.range (t + 1)).findSome? fun i => (a i).orElse fun _ => b i := by
  induction t with
  | zero => exact (findSome?_singleton _ 0).symm
  | succ t ih =>
    rw [select, ih, List.range_succ (t + 1), List.findSome?_append, findSome?_singleton]
    cases (List.range (t + 1)).findSome? fun i => (a i).orElse fun _ => b i <;> rfl

theorem select_timer {α : Type} (a : Nat → Option α) (x : α) (deadline k : Nat) :
    select a (fun t => if deadline ≤ t then some x else none) (deadline + k) =
      some (((List.range (deadline + 1)).findSome? a).getD x) := by
  induction k with
  | zero =>
    rw [Nat.add_zero, select_eq, List.range_succ, List.findSome?_append, List.findSome?_append,
      findSome?_singleton, findSome?_singleton, if_pos le_rfl,
      @findSome?_congr _ _ _ _ a fun i hi => by
        rw [if_neg (by simpa using hi)]; cases a i <;> rfl]
    cases (List.range deadline).findSome? a <;> cases a deadline <;> rfl
  | succ k ih => exact select_succ_of_eq_some ih

def timedOut : Response :=
  (Response.new.withStatus .gatewayTimeout).withBody
    (utf8 "Timed out while waiting for response from the Cocaine")

/-- `TimeoutMiddleware::call`: the upstream raced against the timer, ready from `deadline` on. -/
def TimeoutMiddleware.call (upstream : Nat → Option Response) (deadline : Nat) :
    Nat → Option Response :=
  select upstream fun t => if deadline ≤ t then some timedOut else none

namespace TimeoutMiddleware

/-- From the deadline on, the client has the law's response if `invoke` answered by the deadline's
poll, and the 504 otherwise. -/
theorem call_invoke (codec : Codec) (common : Common) (r : AppRoute) (w : World) (g : Rng)
    (service event : String) (req : Request) (uri : String) (deadline k : Nat) :
    call (fun n => (r.invoke codec common w g n service event req uri).map AppRoute.render)
        deadline (deadline + k) =
      if (r.invoke codec common w g deadline service event req uri).isSome then
        (r.invokeSpec codec common w g service event req uri).map AppRoute.render
      else some timedOut := by
  rw [call, select_timer]
  cases hf : (List.range (deadline + 1)).findSome? fun n =>
      (r.invoke codec common w g n service event req uri).map AppRoute.render with
  | none =>
    have hd := List.findSome?_eq_none_iff.mp hf deadline (List.mem_range.mpr (Nat.lt_succ_self _))
    rw [if_neg fun hs => by
      obtain ⟨res, hres⟩ := Option.isSome_iff_exists.mp hs
      simp [hres] at hd]
    rfl
  | some resp =>
    obtain ⟨n, hn, hm⟩ := List.exists_of_findSome?_eq_some hf
    obtain ⟨res, hres, rfl⟩ := Option.map_eq_some'.mp hm
    have hle : n ≤ deadline := Nat.lt_succ_iff.mp (List.mem_range.mp hn)
    rw [if_pos (by rw [AppRoute.invoke_of_le hres hle]; rfl), AppRoute.invokeSpec_of_invoke hres]
    rfl

end TimeoutMiddleware

def ProxyService.call (router : Nat → Option Response) (t : Nat) : Option (Response × Nat) :=
  (router t).map fun resp => (resp, if resp.status.isServerError then 1 else 0)

/-- `create_service`'s service, `TimeoutMiddleware` around `ProxyService`: the future that loses
the race is dropped, its `and_then` never run. -/
def ProxyServiceFactory.createService (router : Nat → Option Response) (deadline : Nat) :
    Nat → Option (Response × Nat) :=
  select (ProxyService.call router) fun t => if deadline ≤ t then some (timedOut, 0) else none

namespace ProxyServiceFactory

theorem createService_marks (router : Nat → Option Response) (deadline k : Nat) :
    timedOut.status.isServerError ∧
    createService router deadline (deadline + k) =
      match (List.range (deadline + 1)).findSome? router with
      | some resp => some (resp, if resp.status.isServerError then 1 else 0)
      | none => some (timedOut, 0) := by
  refine ⟨rfl, ?_⟩
  rw [createService, select_timer]
  show some (((List.range (deadline + 1)).findSome? (Option.map _ ∘ router)).getD _) = _
  rw [← List.map_findSome?]
  cases (List.range (deadline + 1)).findSome? router <;> rfl

end ProxyServiceFactory

end CocaineHttpProxy
