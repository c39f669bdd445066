import Mathlib.Data.List.Basic

namespace CocaineHttpProxy

/-- The part of `regex` syntax the route's pattern is written in. -/
inductive Regex
  | lit (c : Char)
  | star (p : Char → Bool)
  | seq (r s : Regex)
  | group (i : Nat) (r : Regex)

abbrev Captures := List (Nat × List Char)

namespace Regex

def starRun {α : Type} (p : Char → Bool) (k : List Char → Option α) : List Char → Option α
  | [] => k []
  | c :: cs => if p c then (starRun p k cs).orElse fun _ => k (c :: cs) else k (c :: cs)

/-- Backtracking at the front of the input, in the preference order of `regex`'s
leftmost-first semantics; `k` continues with the rest of the input and the captures. -/
def run {α : Type} : Regex → List Char → Captures → (List Char → Captures → Option α) → Option α
  | .lit c, s, caps, k =>
    match s with
    | x :: xs => if x = c then k xs caps else none
    | [] => none
  | .star p, s, caps, k => starRun p (fun rest => k rest caps) s
  | .seq r₁ r₂, s, caps, k => r₁.run s caps fun rest caps => r₂.run rest caps k
  | .group i r, s, caps, k =>
    r.run s caps fun rest caps => k rest ((i, s.take (s.length - rest.length)) :: caps)

/-- `Regex::captures`: the match at the first start position that has one; neither end is
anchored. -/
def captures (r : Regex) : List Char → Option Captures
  | [] => r.run [] [] fun _ caps => some caps
  | c :: cs => (r.run (c :: cs) [] fun _ caps => some caps).orElse fun _ => r.captures cs

def get (caps : Captures) (i : Nat) : Option (List Char) := (caps.find? (·.1 = i)).map (·.2)

theorem starRun_of_head_fails {α : Type} (p : Char → Bool) (k : List Char → Option α)
    (hk : ∀ c cs, p c → k (c :: cs) = none) (s : List Char) :
    starRun p k s = k (s.dropWhile p) := by
  induction s with
  | nil => rfl
  | cons c cs ih =>
    by_cases hc : p c
    · simp [starRun, hc, ih, hk c cs hc]
    · simp [starRun, hc]

theorem starRun_some {α : Type} (p : Char → Bool) (f : List Char → α) (s : List Char) :
    starRun p (fun rest => some (f rest)) s = some (f (s.dropWhile p)) := by
  induction s with
  | nil => rfl
  | cons c cs ih =>
    by_cases hc : p c
    · simp [starRun, hc, ih]
    · simp [starRun, hc]

theorem take_sub_dropWhile (p : Char → Bool) (s : List Char) :
    s.take (s.length - (s.dropWhile p).length) = s.takeWhile p := by
  induction s with
  | nil => rfl
  | cons c cs ih =>
    by_cases hc : p c
    · have hle : (cs.dropWhile p).length ≤ cs.length := (List.dropWhile_suffix p).length_le
      simp only [List.dropWhile_cons_of_pos hc, List.takeWhile_cons_of_pos hc, List.length_cons]
      rw [Nat.succ_sub hle, List.take_succ_cons, ih]
    · simp [hc]

end Regex

theorem eq_slash_of_dropWhile {rest r : List Char} {x : Char}
    (h : rest.dropWhile (· != '/') = x :: r) : x = '/' := by
  have := List.head?_dropWhile_not (· != '/') rest
  simp_all

/-- `/([^/]*)/([^/?]*)(.*)`, the pattern `AppRoute::new` compiles. -/
def uriPattern : Regex :=
  .seq (.lit '/') (.seq (.group 1 (.star (· != '/'))) (.seq (.lit '/')
    (.seq (.group 2 (.star fun c => c != '/' && c != '?')) (.group 3 (.star (· != '\n'))))))

def uriMatch : List Char → Option Captures
  | '/' :: rest =>
    match rest.dropWhile (· != '/') with
    | '/' :: r =>
      let r' := r.dropWhile fun c => c != '/' && c != '?'
      some [(3, r'.takeWhile (· != '\n')), (2, r.takeWhile fun c => c != '/' && c != '?'),
        (1, rest.takeWhile (· != '/'))]
    | _ => none
  | _ => none

theorem run_uriPattern (s : List Char) :
    uriPattern.run s [] (fun _ caps => some caps) = uriMatch s := by
  match s with
  | [] => rfl
  | c :: rest =>
    by_cases hc : c = '/'
    · subst hc
      simp only [uriPattern, Regex.run, if_true]
      rw [Regex.starRun_of_head_fails _ _ (fun c cs hp => by
        simp only [bne_iff_ne, ne_eq] at hp; simp [Regex.run, hp]) rest, Regex.take_sub_dropWhile]
      simp only [uriMatch]
      rcases hd : rest.dropWhile (· != '/') with _ | ⟨x, r⟩
      · rfl
      · obtain rfl := eq_slash_of_dropWhile hd
        simp only [if_true, Regex.starRun_some, Regex.take_sub_dropWhile]
    · simp [uriPattern, Regex.run, hc, uriMatch]

theorem uriMatch_eq_none {s : List Char} (h : ∀ c ∈ s, c ≠ '/') : uriMatch s = none := by
  match s, h with
  | [], _ => rfl
  | c :: _, h => simp [uriMatch, h c (List.mem_cons_self _ _)]

theorem captures_uriPattern_of_no_slash {s : List Char} (h : ∀ c ∈ s, c ≠ '/') :
    uriPattern.captures s = none := by
  induction s with
  | nil => rfl
  | cons c cs ih =>
    rw [Regex.captures, run_uriPattern, uriMatch_eq_none h,
      ih fun x hx => h x (List.mem_cons_of_mem c hx)]
    rfl

/-- On an origin-form target the unanchored search finds the match anchored at the front, or
none at all. -/
theorem captures_uriPattern_slash (rest : List Char) :
    uriPattern.captures ('/' :: rest) = uriMatch ('/' :: rest) := by
  rw [Regex.captures, run_uriPattern]
  cases hm : uriMatch ('/' :: rest) with
  | some caps => rfl
  | none =>
    refine captures_uriPattern_of_no_slash fun c hc hs => ?_
    simp only [uriMatch] at hm
    rcases hd : rest.dropWhile (· != '/') with _ | ⟨x, r⟩
    · have := List.dropWhile_eq_nil_iff.mp hd c hc
      simp_all
    · simp [hd, eq_slash_of_dropWhile hd] at hm

end CocaineHttpProxy
