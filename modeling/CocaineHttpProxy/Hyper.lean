import Mathlib.Data.List.Nodup

namespace CocaineHttpProxy

abbrev Bytes := List UInt8

/-- The bytes of a Rust `String`: its UTF-8 encoding. -/
def utf8 (s : String) : Bytes := s.toUTF8.data.toList

theorem length_utf8 (s : String) : (utf8 s).length = s.utf8ByteSize := by
  rw [← String.size_toUTF8]; rfl

/-- hyper's `StatusCode`, by its numeric value. -/
structure StatusCode where
  code : Nat
  deriving DecidableEq, Repr

namespace StatusCode

def ok : StatusCode := ⟨200⟩
def noContent : StatusCode := ⟨204⟩
def notModified : StatusCode := ⟨304⟩
def badRequest : StatusCode := ⟨400⟩
def internalServerError : StatusCode := ⟨500⟩
def serviceUnavailable : StatusCode := ⟨503⟩
def gatewayTimeout : StatusCode := ⟨504⟩

/-- A status hyper sends as such: `100..=599`. -/
def Valid (s : StatusCode) : Prop := 100 ≤ s.code ∧ s.code ≤ 599

instance (s : StatusCode) : Decidable s.Valid := inferInstanceAs (Decidable (_ ∧ _))

/-- `StatusCode::is_server_error`: the 5xx class. -/
def isServerError (s : StatusCode) : Bool := 500 ≤ s.code && s.code < 600

/-- hyper's `StatusCode::try_from(u16)`: only `100..=599` are status codes. -/
def tryFrom (n : UInt16) : Option StatusCode :=
  if 100 ≤ n.toNat ∧ n.toNat ≤ 599 then some ⟨n.toNat⟩ else none

end StatusCode

inductive Method
  | options | get | post | put | delete | head | trace | connect | patch
  | extension (name : String)
  deriving DecidableEq, Repr

inductive HttpVersion
  | http09 | http10 | http11 | h2 | h2c
  deriving DecidableEq, Repr

/-- `serialize_version`: HTTP/1.1 is sent as "1.1", every other version as "1.0". -/
def serializeVersion (v : HttpVersion) : String :=
  if v = .http11 then "1.1" else "1.0"

theorem serializeVersion_eq_one_one_iff (v : HttpVersion) :
    serializeVersion v = "1.1" ↔ v = .http11 := by
  unfold serializeVersion
  split <;> simp_all

theorem serializeVersion_of_ne {v : HttpVersion} (h : v ≠ .http11) : serializeVersion v = "1.0" :=
  if_neg h

example : serializeVersion .http10 = "1.0" := rfl
example : serializeVersion .http11 = "1.1" := rfl

/-- Header names compare ASCII case-insensitively (hyper's `HeaderName`). -/
def headerKey (name : String) : List Char := name.data.map Char.toLower

/-- Modelled from the spec: the typed headers of `crate::common` that the route sets on
responses, with the names section 6 gives them. -/
inductive Typed
  | xRequestId (trace : UInt64)
  | xErrorGeneratedBy (origin : String)
  | xPoweredBy
  | xCocaineApp (app : String)
  deriving DecidableEq, Repr

def Typed.headerName : Typed → String
  | .xRequestId _ => "X-Request-Id"
  | .xErrorGeneratedBy _ => "X-Error-Generated-By"
  | .xPoweredBy => "X-Powered-By"
  | .xCocaineApp _ => "X-Cocaine-App"

/-- A header's value as hyper keeps it: a typed value put by `set`, or raw lines put by
`set_raw` or read from the wire. -/
inductive Item
  | typed (h : Typed)
  | raw (lines : List Bytes)
  deriving DecidableEq, Repr

/-- hyper's `VecMap` insert: replace the entry of the same name in place (its name too),
or push a new one at the end. -/
def insertEntry (name : String) (item : Item) : List (String × Item) → List (String × Item)
  | [] => [(name, item)]
  | e :: es => if headerKey e.1 = headerKey name then (name, item) :: es
    else e :: insertEntry name item es

def lookup (name : String) : List (String × Item) → Option Item
  | [] => none
  | e :: es => if headerKey e.1 = headerKey name then some e.2 else lookup name es

theorem lookup_insertEntry_same {n n' : String} (i : Item) (es : List (String × Item))
    (h : headerKey n' = headerKey n) : lookup n' (insertEntry n i es) = some i := by
  induction es with
  | nil => simp [insertEntry, lookup, h]
  | cons e es ih =>
    by_cases he : headerKey e.1 = headerKey n
    · simp [insertEntry, lookup, he, h]
    · simp [insertEntry, lookup, he, h, ih]

theorem lookup_insertEntry_ne {n n' : String} (i : Item) (es : List (String × Item))
    (h : headerKey n' ≠ headerKey n) : lookup n' (insertEntry n i es) = lookup n' es := by
  induction es with
  | nil => simp [insertEntry, lookup, Ne.symm h]
  | cons e es ih =>
    by_cases he : headerKey e.1 = headerKey n
    · simp [insertEntry, lookup, he, Ne.symm h]
    · simp [insertEntry, lookup, he, ih]

theorem keys_insertEntry (n : String) (i : Item) (es : List (String × Item)) :
    (insertEntry n i es).map (headerKey ∘ Prod.fst) =
      if headerKey n ∈ es.map (headerKey ∘ Prod.fst) then es.map (headerKey ∘ Prod.fst)
      else es.map (headerKey ∘ Prod.fst) ++ [headerKey n] := by
  induction es with
  | nil => simp [insertEntry]
  | cons e es ih =>
    by_cases he : headerKey e.1 = headerKey n
    · simp [insertEntry, he]
    · simp only [insertEntry, if_neg he, List.map_cons, Function.comp_apply, ih, List.mem_cons,
        Ne.symm he, false_or]
      split <;> rfl

theorem nodup_insertEntry (n : String) (i : Item) {es : List (String × Item)}
    (h : (es.map (headerKey ∘ Prod.fst)).Nodup) :
    ((insertEntry n i es).map (headerKey ∘ Prod.fst)).Nodup := by
  rw [keys_insertEntry]
  split
  · exact h
  · refine h.append (List.nodup_singleton _) fun a ha hb => ?_
    rw [List.mem_singleton] at hb
    subst hb
    contradiction

theorem mem_insertEntry {n : String} {i : Item} {es : List (String × Item)} {e : String × Item}
    (h : e ∈ insertEntry n i es) : e = (n, i) ∨ e ∈ es := by
  induction es with
  | nil => simpa [insertEntry] using h
  | cons x es ih =>
    simp only [insertEntry] at h
    split at h
    · exact (List.mem_cons.mp h).imp_right (List.mem_cons_of_mem x)
    · rcases List.mem_cons.mp h with rfl | h
      · exact .inr (List.mem_cons_self _ _)
      · exact (ih h).imp_right (List.mem_cons_of_mem x)

/-- hyper's `Headers`: at most one entry per name. -/
structure Headers where
  entries : List (String × Item)
  nodup : (entries.map (headerKey ∘ Prod.fst)).Nodup

namespace Headers

def empty : Headers := ⟨[], List.nodup_nil⟩

def insert (hs : Headers) (name : String) (item : Item) : Headers :=
  ⟨insertEntry name item hs.entries, nodup_insertEntry name item hs.nodup⟩

def find? (hs : Headers) (name : String) : Option Item := lookup name hs.entries

def set (hs : Headers) (h : Typed) : Headers := hs.insert h.headerName (.typed h)

/-- `set_raw`: replace every value of the header by the one line given. -/
def setRaw (hs : Headers) (name : String) (value : Bytes) : Headers :=
  hs.insert name (.raw [value])

def getRaw (hs : Headers) (name : String) : Option (List Bytes) :=
  match hs.find? name with
  | some (.raw lines) => some lines
  | _ => none

@[simp] theorem find?_empty (n : String) : empty.find? n = none := rfl

theorem find?_insert (hs : Headers) (n n' : String) (i : Item) :
    (hs.insert n i).find? n' = if headerKey n' = headerKey n then some i else hs.find? n' := by
  split
  · exact lookup_insertEntry_same i _ ‹_›
  · exact lookup_insertEntry_ne i _ ‹_›

@[simp] theorem find?_set (hs : Headers) (h : Typed) (n : String) :
    (hs.set h).find? n = if headerKey n = headerKey h.headerName then some (.typed h) else hs.find? n :=
  find?_insert hs _ n _

end Headers

/-- hyper's `Response`; the version is not modelled, no function here reads it. -/
structure Response where
  status : StatusCode
  headers : Headers
  body : Option Bytes

namespace Response

def new : Response := ⟨.ok, .empty, none⟩

def withStatus (r : Response) (s : StatusCode) : Response := { r with status := s }

def withHeader (r : Response) (h : Typed) : Response := { r with headers := r.headers.set h }

def withBody (r : Response) (b : Bytes) : Response := { r with body := some b }

def setRaw (r : Response) (name : String) (value : Bytes) : Response :=
  { r with headers := r.headers.setRaw name value }

@[simp] theorem withStatus_status (r : Response) (s : StatusCode) : (r.withStatus s).status = s := rfl
@[simp] theorem withStatus_headers (r : Response) (s : StatusCode) :
    (r.withStatus s).headers = r.headers := rfl
@[simp] theorem withStatus_body (r : Response) (s : StatusCode) : (r.withStatus s).body = r.body := rfl
@[simp] theorem withHeader_status (r : Response) (h : Typed) : (r.withHeader h).status = r.status := rfl
@[simp] theorem withHeader_headers (r : Response) (h : Typed) :
    (r.withHeader h).headers = r.headers.set h := rfl
@[simp] theorem withHeader_body (r : Response) (h : Typed) : (r.withHeader h).body = r.body := rfl
@[simp] theorem withBody_status (r : Response) (b : Bytes) : (r.withBody b).status = r.status := rfl
@[simp] theorem withBody_headers (r : Response) (b : Bytes) : (r.withBody b).headers = r.headers := rfl
@[simp] theorem withBody_body (r : Response) (b : Bytes) : (r.withBody b).body = some b := rfl
@[simp] theorem setRaw_status (r : Response) (n : String) (v : Bytes) :
    (r.setRaw n v).status = r.status := rfl
@[simp] theorem setRaw_headers (r : Response) (n : String) (v : Bytes) :
    (r.setRaw n v).headers = r.headers.setRaw n v := rfl
@[simp] theorem setRaw_body (r : Response) (n : String) (v : Bytes) : (r.setRaw n v).body = r.body := rfl
@[simp] theorem new_status : new.status = .ok := rfl
@[simp] theorem new_headers : new.headers = .empty := rfl
@[simp] theorem new_body : new.body = none := rfl

def requestId? (r : Response) : Option Item := r.headers.find? "X-Request-Id"

@[simp] theorem requestId_withStatus (r : Response) (s : StatusCode) :
    (r.withStatus s).requestId? = r.requestId? := rfl

@[simp] theorem requestId_withBody (r : Response) (b : Bytes) :
    (r.withBody b).requestId? = r.requestId? := rfl

@[simp] theorem requestId_withHeader (r : Response) (h : Typed) :
    (r.withHeader h).requestId? = match h with
      | .xRequestId trace => some (.typed (.xRequestId trace))
      | _ => r.requestId? := by
  cases h <;> refine (Headers.find?_set _ _ _).trans ?_ <;> simp only [Typed.headerName]
  · exact if_pos trivial
  all_goals exact if_neg (by decide)

end Response

end CocaineHttpProxy
