import Spacemesh.Server.Response
import Mathlib.Tactic.Ring

/-!
# A request over a p2p stream

The request path of the p2p `Server`. `StreamRequest` refuses a request longer than the
client's limit and otherwise writes it after its length as a uvarint (the unexported
`streamRequest`, with `binary.PutUvarint`); the server's `queueHandler` reads the length
with go-varint's `ReadUvarint`, refuses one above its own limit, reads the request and runs
its stream handler, which for `WrapHandler` writes the handler's `Response`; `Request`
decodes that response. The two varint functions are libraries outside the sources; they are
modelled from their code, the OR of disjoint bit ranges written as a sum. A stream is the
bytes still to be read from it; connection, deadline and stream failures are not modelled.

A uvarint below `2^63` reads back whatever follows it (`readUvarint_putUvarint`). One
exchange between a client and a server running `WrapHandler` is decided by the two limits
and the handler alone (`request_exchange`).
-/

set_option linter.dupNamespace false

namespace Spacemesh.Server

open Scale

/-! ## Uvarints -/

/-- `binary.PutUvarint`: seven bits a byte, least significant first, `byte(x) | 0x80` on
every byte but the last. -/
def putUvarint (x : ℕ) : Bytes :=
  if x < 128 then [UInt8.ofNat x] else UInt8.ofNat (x % 128 + 128) :: putUvarint (x / 128)
termination_by x
decreasing_by omega

inductive VarintError
  /-- `io.EOF`: the stream ends before the first byte. -/
  | eof
  /-- `io.ErrUnexpectedEOF`: the stream ends inside the number. -/
  | unexpectedEOF
  /-- `ErrOverflow`: more than nine bytes, or 63 bits. -/
  | overflow
  /-- `ErrNotMinimal`: a last byte of zero after others. -/
  | notMinimal
  deriving DecidableEq, Repr

/-- The loop of `ReadUvarint` at byte `i` (shift `7 * i`), with `x` the value read so far:
the number and the rest of the stream. -/
def readUvarintLoop : ℕ → ℕ → Bytes → Except VarintError (ℕ × Bytes)
  | i, _, [] => .error (if i ≠ 0 then .unexpectedEOF else .eof)
  | i, x, b :: rd =>
    if (i = 8 ∧ 128 ≤ b.toNat) ∨ 9 ≤ i then .error .overflow
    else if b.toNat < 128 then
      if b.toNat = 0 ∧ 0 < i then .error .notMinimal else .ok (x + b.toNat * 2 ^ (7 * i), rd)
    else readUvarintLoop (i + 1) (x + b.toNat % 128 * 2 ^ (7 * i)) rd

def readUvarint (rd : Bytes) : Except VarintError (ℕ × Bytes) := readUvarintLoop 0 0 rd

theorem putUvarint_of_lt {x : ℕ} (h : x < 128) : putUvarint x = [UInt8.ofNat x] := by
  rw [putUvarint, if_pos h]

theorem putUvarint_of_le {x : ℕ} (h : 128 ≤ x) :
    putUvarint x = UInt8.ofNat (x % 128 + 128) :: putUvarint (x / 128) := by
  rw [putUvarint, if_neg (by omega)]

theorem readUvarintLoop_putUvarint (rest : Bytes) (v : ℕ) :
    ∀ i x, i ≤ 8 → v < 2 ^ (7 * (9 - i)) → (0 < i → 0 < v) →
      readUvarintLoop i x (putUvarint v ++ rest) = .ok (x + v * 2 ^ (7 * i), rest) := by
  induction v using Nat.strong_induction_on with
  | _ v ih =>
  intro i x hi hv hpos
  by_cases hsmall : v < 128
  · have hb : (UInt8.ofNat v).toNat = v := by rw [toNat_uint8_ofNat]; omega
    rw [putUvarint_of_lt hsmall, List.singleton_append, readUvarintLoop, hb,
      if_neg (by omega), if_pos hsmall, if_neg (by omega)]
  · have hb : (UInt8.ofNat (v % 128 + 128)).toNat = v % 128 + 128 := by rw [toNat_uint8_ofNat]; omega
    have hi7 : i ≤ 7 := by
      by_contra h8
      have : 7 * (9 - i) = 7 := by omega
      rw [this] at hv; omega
    have hexp : 2 ^ (7 * (9 - i)) = 2 ^ (7 * (9 - (i + 1))) * 128 := by
      rw [show 7 * (9 - i) = 7 * (9 - (i + 1)) + 7 by omega, Nat.pow_add]
    have hstep : 2 ^ (7 * (i + 1)) = 2 ^ (7 * i) * 128 := by rw [Nat.mul_succ, Nat.pow_add]
    have hsum : x + (v % 128 + 128) % 128 * 2 ^ (7 * i) + v / 128 * (2 ^ (7 * i) * 128) = x + v * 2 ^ (7 * i) :=
      calc x + (v % 128 + 128) % 128 * 2 ^ (7 * i) + v / 128 * (2 ^ (7 * i) * 128)
          = x + (v % 128 + 128 * (v / 128)) * 2 ^ (7 * i) := by
            rw [show (v % 128 + 128) % 128 = v % 128 by omega]; ring
        _ = x + v * 2 ^ (7 * i) := by rw [Nat.mod_add_div]
    rw [putUvarint_of_le (by omega), List.cons_append, readUvarintLoop, hb, if_neg (by omega),
      if_neg (by omega), ih (v / 128) (by omega) (i + 1) _ (by omega)
        ((Nat.div_lt_iff_lt_mul (by decide)).2 (hexp ▸ hv)) (fun _ => by omega), hstep, hsum]

theorem readUvarint_putUvarint {x : ℕ} (hx : x < 2 ^ 63) (rest : Bytes) :
    readUvarint (putUvarint x ++ rest) = .ok (x, rest) := by
  rw [readUvarint, readUvarintLoop_putUvarint rest x 0 0 le_add_self hx (fun h => absurd h (lt_irrefl 0))]
  simp

/-! ## The server -/

structure Server where
  requestLimit : ℤ
  handler : Bytes → Except ScaleError (Bytes × Option Bytes)

def Server.new (handler : Bytes → Except ScaleError (Bytes × Option Bytes)) : Server := ⟨10240, handler⟩

/-- `uint64(s.requestLimit)`. -/
def Server.requestLimit64 (s : Server) : ℕ := (s.requestLimit % 2 ^ 64).toNat

def Server.queueHandler (s : Server) (stream : Bytes) : Bool × Bytes :=
  match readUvarint stream with
  | .error _ => (false, [])
  | .ok (size, rd) =>
    if size > s.requestLimit64 then (false, [])
    else if rd.length < size then (false, [])
    else
      match s.handler (rd.take size) with
      | .error _ => (false, [])
      | .ok (written, hErr) => (hErr.isNone, written)

/-- What the unexported `streamRequest` writes: the request length as a uvarint, then the
request. -/
def requestFrame (req : Bytes) : Bytes := putUvarint req.length ++ req

inductive StreamRequestError
  /-- `request length (%d) is longer than limit %d`. -/
  | requestTooLong (len limit : ℤ)
  /-- The callback's error, returned as it is. -/
  | callback (e : ResponseError)
  deriving DecidableEq, Repr

def Server.streamRequest {α : Type} (s : Server) (peer : Bytes → Bytes) (req : Bytes)
    (callback : Bytes → Except ResponseError α) : Except StreamRequestError α :=
  if (req.length : ℤ) > s.requestLimit then .error (.requestTooLong req.length s.requestLimit)
  else
    match callback (peer (requestFrame req)) with
    | .error e => .error (.callback e)
    | .ok a => .ok a

def Server.request (s : Server) (peer : Bytes → Bytes) (req : Bytes) : Except StreamRequestError Bytes :=
  s.streamRequest peer req Spacemesh.Server.request

theorem queueHandler_requestFrame (s : Server) {req : Bytes} (hlen : req.length < 2 ^ 63) :
    s.queueHandler (requestFrame req) =
      if s.requestLimit64 < req.length then (false, [])
      else
        match s.handler req with
        | .error _ => (false, [])
        | .ok (written, hErr) => (hErr.isNone, written) := by
  simp only [Server.queueHandler, requestFrame, readUvarint_putUvarint hlen, gt_iff_lt, lt_irrefl,
    if_false, List.take_length]

theorem request_encodeScale {r : Response} {bs : Bytes} (h : r.encodeScale = .ok bs) (rest : Bytes) :
    request (bs ++ rest) = if r.error ≠ [] then .error (.server r.error) else .ok r.data := by
  simp only [request, Response.roundTrips.2.2 r bs h rest]

theorem request_nil : request [] = .error (.decode .eof) := rfl

/-- The response `WrapHandler` writes for a handler's result. -/
def wrapResponse : Except Bytes Bytes → Response
  | .error e => ⟨[], e⟩
  | .ok buf => ⟨buf, []⟩

theorem wrapHandler_eq (res : Except Bytes Bytes) :
    wrapHandler res = (writeResponse (wrapResponse res)).map
      fun bs => (bs, match res with | .error e => some e | .ok _ => none) := by
  cases res <;> rfl

/-- One exchange between a client `c` and a server `srv` whose stream handler is `WrapHandler`
of `h`, for a request whose response fits the codec's limits. The client refuses a request
over its limit; a server whose limit is below the length answers nothing, which the client
reads as a decode error at the end of the stream; otherwise the server gets exactly the
request, reports success exactly when the handler succeeded, and the client gets the
handler's data, or `ServerError` with its text, but no error and no data for an empty text. -/
theorem request_exchange (c srv : Server) (h : Bytes → Except Bytes Bytes) (req : Bytes)
    (hwrap : ∀ r, srv.handler r = wrapHandler (h r)) (hc : c.requestLimit < 2 ^ 63)
    (hv : (wrapResponse (h req)).valid) :
    c.request (fun bs => (srv.queueHandler bs).2) req =
      (if c.requestLimit < req.length then .error (.requestTooLong req.length c.requestLimit)
        else if srv.requestLimit64 < req.length then .error (.callback (.decode .eof))
        else
          match h req with
          | .ok d => .ok d
          | .error e => if e ≠ [] then .error (.callback (.server e)) else .ok []) ∧
    (req.length ≤ srv.requestLimit64 → req.length < 2 ^ 63 →
      (srv.queueHandler (requestFrame req)).1 = match h req with | .ok _ => true | .error _ => false) := by
  obtain ⟨bs, hbs⟩ := (Response.roundTrips.1 _).1 hv
  have hreq := request_encodeScale hbs []
  rw [List.append_nil] at hreq
  have hq : req.length < 2 ^ 63 → req.length ≤ srv.requestLimit64 →
      srv.queueHandler (requestFrame req) = (match h req with | .ok _ => true | .error _ => false, bs) := by
    intro hlen hs
    rw [queueHandler_requestFrame _ hlen, if_neg (Nat.not_lt.2 hs), hwrap, wrapHandler_eq, writeResponse, hbs]
    cases h req <;> rfl
  refine ⟨?_, fun hs hlen => by rw [hq hlen hs]⟩
  unfold Server.request Server.streamRequest
  by_cases hcl : c.requestLimit < req.length
  · rw [if_pos hcl, if_pos hcl]
  · have hlen : req.length < 2 ^ 63 := by omega
    rw [if_neg hcl, if_neg hcl]
    by_cases hs : srv.requestLimit64 < req.length
    · simp only [queueHandler_requestFrame _ hlen, if_pos hs, request_nil]
    · simp only [hq hlen (Nat.not_lt.1 hs), if_neg hs, hreq]
      cases h req with
      | ok d => rfl
      | error e => by_cases he0 : e ≠ [] <;> simp [wrapResponse, he0]

theorem request_exchange_echo :
    (∀ r, (Server.new fun r => wrapHandler (.ok r)).handler r = wrapHandler (.ok r)) ∧
      (Server.new fun r => wrapHandler (.ok r)).requestLimit < 2 ^ 63 ∧
      (wrapResponse (.ok [1, 2])).valid ∧
      (Server.new fun r => wrapHandler (.ok r)).request
        (fun bs => ((Server.new fun r => wrapHandler (.ok r)).queueHandler bs).2) [1, 2] = .ok [1, 2] :=
  ⟨fun _ => rfl, by decide, ⟨by decide, by decide⟩, by
    rw [(request_exchange _ _ (fun r => .ok r) [1, 2] (fun _ => rfl) (by decide) ⟨by decide, by decide⟩).1]
    rfl⟩

end Spacemesh.Server
