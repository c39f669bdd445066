import Mathlib.Algebra.Group.Nat.Basic
import CocaineHttpProxy.Hyper

namespace CocaineHttpProxy

/-- `pack_u64`: eight bytes, least significant first. -/
def packU64 (v : UInt64) : Bytes :=
  (List.range 8).map fun i => (v >>> (8 * i).toUInt64).toUInt8

theorem length_packU64 (v : UInt64) : (packU64 v).length = 8 := by simp [packU64]

/-- The value of bytes read least significant first, as `LittleEndian::read_u64` reads the
eight that `pack_u64` writes. -/
def readLE : Bytes → Nat
  | [] => 0
  | b :: bs => b.toNat + 256 * readLE bs

theorem toNat_packU64_byte (v : UInt64) {i : Nat} (hi : i < 8) :
    ((v >>> (8 * i).toUInt64).toUInt8).toNat = v.toNat / 256 ^ i % 256 := by
  have hs : ((8 * i).toUInt64 % 64).toNat = 8 * i := by
    rw [UInt64.toNat_mod]
    simp only [UInt64.toNat, Nat.toUInt64, UInt64.ofNat, UInt64.mk_ofNat, UInt64.toBitVec_ofNat,
      BitVec.toNat_ofNat, Nat.reducePow, Nat.reduceMod]
    omega
  show (Nat.toUInt8 ((v.toBitVec >>> ((8 * i).toUInt64 % 64).toBitVec).toNat)).toNat = _
  rw [BitVec.ushiftRight_eq', BitVec.toNat_ushiftRight]
  change (Nat.toUInt8 (v.toNat >>> ((8 * i).toUInt64 % 64).toNat)).toNat = _
  rw [hs, Nat.shiftRight_eq_div_pow, Nat.pow_mul]
  simp only [UInt8.toNat, Nat.toUInt8, UInt8.ofNat, Nat.reducePow, UInt8.mk_ofNat,
    UInt8.toBitVec_ofNat, BitVec.toNat_ofNat]

theorem readLE_range {k : Nat} (f : Nat → UInt8) (n : Nat)
    (hf : ∀ i < k, (f i).toNat = n / 256 ^ i % 256) :
    readLE ((List.range k).map f) = n % 256 ^ k := by
  induction k generalizing f n with
  | zero => simp only [List.range_zero, List.map_nil, readLE, Nat.pow_zero, Nat.mod_one]
  | succ k ih =>
    rw [List.range_succ_eq_map, List.map_cons, List.map_map, readLE,
      ih (f ∘ Nat.succ) (n / 256) fun i hi => by
        rw [Function.comp_apply, hf (i + 1) (by omega), Nat.div_div_eq_div_mul, ← Nat.pow_succ'],
      hf 0 (Nat.succ_pos k), Nat.pow_zero, Nat.div_one, Nat.pow_succ', Nat.mod_mul]

/-- `pack_u64` writes every `v` as eight bytes, least significant first: read back so, they
give `v`. -/
theorem readLE_packU64 (v : UInt64) : (packU64 v).length = 8 ∧ readLE (packU64 v) = v.toNat :=
  ⟨length_packU64 v, (readLE_range _ v.toNat fun _ hi => toNat_packU64_byte v hi).trans
    (Nat.mod_eq_of_lt (v.toNat_lt_size.trans_eq rfl))⟩

/-- `hpack::RawHeader`: a header of a backend call, its name and its value in bytes. -/
structure RawHeader where
  name : Bytes
  value : Bytes
  deriving DecidableEq, Repr

namespace RawHeader

/-- `TraceId(v).into_raw()` and the other tracing headers of cocaine's `hpack` (not in this
crate): cocaine's names, the ids in the eight bytes `pack_u64` writes. -/
def traceId (v : UInt64) : RawHeader := ⟨utf8 "trace_id", packU64 v⟩

def spanId (v : UInt64) : RawHeader := ⟨utf8 "span_id", packU64 v⟩

def parentId (v : UInt64) : RawHeader := ⟨utf8 "parent_id", packU64 v⟩

def traceBit (set : Bool) : RawHeader := ⟨utf8 "trace_bit", [if set then 1 else 0]⟩

def idNamed (name : String) (h : RawHeader) : Option UInt64 :=
  if h.name = utf8 name then some (readLE h.value).toUInt64 else none

end RawHeader

structure Call where
  method : Nat
  args : List Bytes
  headers : List RawHeader
  deriving DecidableEq, Repr

/-- cocaine's `Error`: a service error with its category and code, or any other failure.
`text` is what `to_string` renders. -/
inductive CocaineError
  | service (category code : Nat) (text : String)
  | other (text : String)
  deriving DecidableEq, Repr

def CocaineError.text : CocaineError → String
  | .service _ _ t => t
  | .other t => t

/-- One frame of a backend response stream, as `deserialize::<Streaming<RawRef>>().flatten()`
gives it: `Ok(Some(data))`, `Ok(None)` or `Err(err)`. -/
inductive Frame
  | write (data : Bytes)
  | close
  | error (e : CocaineError)
  deriving DecidableEq, Repr

/-- The source `rand::random::<u64>()` draws from: its draws in order, and how many were taken. -/
structure Rng where
  draw : Nat → UInt64
  pos : Nat

def Rng.random (g : Rng) : UInt64 × Rng := (g.draw g.pos, { g with pos := g.pos + 1 })

/-- The pool's per-attempt `Settings`; the timeout is in seconds. -/
structure Settings where
  timeout : Option Float
  verbose : Bool

inductive TracingPolicy
  | auto
  | manual (p : Float)

inductive Error
  | incompleteHeadersMatch
  | invalidRequestIdHeader (name : String)
  | invalidBodyRead (text : String)
  | canceled
  deriving DecidableEq, Repr

namespace Error

def code : Error → StatusCode
  | .incompleteHeadersMatch | .invalidRequestIdHeader _ => .badRequest
  | .invalidBodyRead _ | .canceled => .internalServerError

def toString : Error → String
  | .incompleteHeadersMatch =>
    "either none or both `X-Cocaine-Service` and `X-Cocaine-Event` headers must be specified"
  | .invalidRequestIdHeader name => "Invalid `" ++ name ++ "` header value"
  | .invalidBodyRead text => text
  | .canceled => "canceled"

end Error

structure ResponseMeta where
  code : UInt32
  headers : List (String × String)
  deriving DecidableEq, Repr

structure RequestMeta where
  method : Method
  uri : String
  version : HttpVersion
  headers : List (String × Bytes)
  body : Bytes
  deriving DecidableEq, Repr

/-- hyper's server `Request`; `body` is the outcome of reading the body whole (`concat2`). -/
structure Request where
  method : Method
  uri : String
  version : HttpVersion
  headers : Headers
  body : Except String Bytes

structure AppRequest where
  service : String
  event : String
  trace : UInt64
  frame : RequestMeta
  deriving DecidableEq, Repr

def frameHeaders (hs : Headers) : List (String × Bytes) :=
  hs.entries.map fun e => (e.1, match e.2 with | .raw lines => lines.flatten | .typed _ => [])

namespace AppRequest

def new (service event : String) (trace : UInt64) (req : Request) (uri : String) : AppRequest :=
  { service, event, trace
    frame := { method := req.method, version := req.version, uri
               headers := frameHeaders req.headers
               body := [] } }

def setBody (r : AppRequest) (body : Bytes) : AppRequest :=
  { r with frame := { r.frame with body } }

end AppRequest

/-- The library functions the dispatcher calls: `rmps::from_slice` on the meta frame and
hyper's parse of a `Content-Length` header's lines. Results hold for every choice. -/
structure Codec where
  fromSlice : Bytes → Except String ResponseMeta
  contentLength : List Bytes → Option Nat

namespace Msgpack

def readN (n : Nat) (r : Bytes) : Option (Bytes × Bytes) :=
  if n ≤ r.length then some (r.take n, r.drop n) else none

def beNat (bs : Bytes) : Nat := bs.foldl (fun a b => 256 * a + b.toNat) 0

def readUInt : Bytes → Option (Nat × Bytes)
  | [] => none
  | b :: r =>
    if b < 0x80 then some (b.toNat, r)
    else if b = 0xcc then (readN 1 r).map fun p => (beNat p.1, p.2)
    else if b = 0xcd then (readN 2 r).map fun p => (beNat p.1, p.2)
    else if b = 0xce then (readN 4 r).map fun p => (beNat p.1, p.2)
    else none

def readArrayLen : Bytes → Option (Nat × Bytes)
  | [] => none
  | b :: r =>
    if 0x90 ≤ b ∧ b ≤ 0x9f then some (b.toNat - 0x90, r)
    else if b = 0xdc then (readN 2 r).map fun p => (beNat p.1, p.2)
    else none

def readStr : Bytes → Option (String × Bytes)
  | [] => none
  | b :: r => do
    let n ← if 0xa0 ≤ b ∧ b ≤ 0xbf then some (b.toNat - 0xa0)
      else if b = 0xd9 then (r.head?.map UInt8.toNat) else none
    let r := if b = 0xd9 then r.drop 1 else r
    let (s, r) ← readN n r
    if s.all (· < 0x80) then some (String.mk (s.map fun c => Char.ofNat c.toNat), r) else none

def readPairs : Nat → Bytes → Option (List (String × String) × Bytes)
  | 0, r => some ([], r)
  | n + 1, r => do
    let (2, r) ← readArrayLen r | none
    let (k, r) ← readStr r
    let (v, r) ← readStr r
    let (ps, r) ← readPairs n r
    some ((k, v) :: ps, r)

/-- A decoder for the array form rmp-serde gives `ResponseMeta`, on the encodings above; it
stands in for `rmps::from_slice` only in runs on fixed inputs. -/
def fromSlice (d : Bytes) : Except String ResponseMeta :=
  match (do
      let (2, r) ← readArrayLen d | none
      let (code, r) ← readUInt r
      let (n, r) ← readArrayLen r
      let (hs, r) ← readPairs n r
      if r = [] then some (ResponseMeta.mk code.toUInt32 hs) else none) with
  | some m => .ok m
  | none => .error "invalid type: expected ResponseMeta"

def contentLength : List Bytes → Option Nat
  | [l] => if l ≠ [] ∧ l.all (fun b => 48 ≤ b ∧ b ≤ 57) then
      some (l.foldl (fun a b => 10 * a + (b.toNat - 48)) 0) else none
  | _ => none

def codec : Codec := ⟨fromSlice, contentLength⟩

def encode (m : ResponseMeta) : Bytes :=
  let str (s : String) : Bytes := (0xa0 + s.length.toUInt8) :: s.data.map (·.toNat.toUInt8)
  let n := m.code.toNat
  [0x92, 0xce, (n / 0x1000000).toUInt8, (n / 0x10000).toUInt8, (n / 0x100).toUInt8, n.toUInt8,
    0x90 + m.headers.length.toUInt8] ++ (m.headers.map fun h => 0x92 :: str h.1 ++ str h.2).flatten

end Msgpack

end CocaineHttpProxy
