import Spacemesh.Scale.Types

/-!
# Responses of the p2p server

`writeResponse`, `WrapHandler`, `ReadResponse` and the response callback of
`Server.Request`. A stream is the bytes still to be read from it; writer and
stream failures other than the codec's are not modelled.

`ReadResponse` reads the data length itself and hands the data to a callback;
`Request` decodes the whole `Response`. The two agree on every response a server
writes but one: an empty data with an empty error, which `Request` returns as an
empty result and `ReadResponse` rejects as malformed (`readResponse_classifies`).
-/

namespace Spacemesh.Server

open Scale

inductive ResponseError
  /-- The error of `DecodeLen`, returned as it is. -/
  | read (e : ScaleError)
  /-- `callback error: %w`. -/
  | callback (msg : String)
  /-- `malformed server response`. -/
  | malformed
  /-- `decode error: %w`, and `peer %s: %w` of `Request`. -/
  | decode (e : ScaleError)
  /-- `ServerError` with the server's error text. -/
  | server (msg : Bytes)
  deriving DecidableEq, Repr

def writeResponse (resp : Response) : Except ScaleError Bytes := resp.encodeScale

def wrapHandler (handler : Except Bytes Bytes) : Except ScaleError (Bytes × Option Bytes) :=
  let resp : Response := match handler with
    | .error e => ⟨[], e⟩
    | .ok buf => ⟨buf, []⟩
  (writeResponse resp).map fun bs => (bs, match handler with | .error e => some e | .ok _ => none)

/-- `ReadResponse`. The callback gets the data length and the stream, and returns
its result, the byte count it reports and the rest of the stream. The result is
the callback's (none when it is not called) and the byte count. -/
def readResponse {α : Type} (toCall : ℕ → Bytes → Except String (α × ℕ × Bytes)) (r : Bytes) :
    Except ResponseError (Option α × ℕ) :=
  match decodeCompact 4 r with
  | .error e => .error (.read e)
  | .ok (respLen, nBytes, r) =>
    let called : Except ResponseError (Option α × ℕ × Bytes) :=
      if respLen ≠ 0 then
        match toCall respLen r with
        | .error msg => .error (.callback msg)
        | .ok (a, n, r) => if respLen ≠ n then .error .malformed else .ok (some a, nBytes + n, r)
      else .ok (none, nBytes, r)
    match called with
    | .error e => .error e
    | .ok (a, nBytes, r) =>
      match decodeByteSliceWithLimit 1024 r with
      | .error e => .error (.decode e)
      | .ok (errStr, n, _) =>
        if errStr ≠ [] then .error (.server errStr)
        else if respLen = 0 then .error .malformed
        else .ok (a, nBytes + n)

def readExactly (resLen : ℕ) (s : Bytes) : Except String (Bytes × ℕ × Bytes) :=
  if resLen ≤ s.length then .ok (s.take resLen, resLen, s.drop resLen) else .error "unexpected EOF"

/-- The callback of `Server.Request`: decode a `Response`; a non-empty error is a
`ServerError`, otherwise the data is the result. -/
def request (stream : Bytes) : Except ResponseError Bytes :=
  match Response.decodeScale stream with
  | .error e => .error (.decode e)
  | .ok (r, _, _) => if r.error ≠ [] then .error (.server r.error) else .ok r.data

theorem readExactly_append (v rest : Bytes) : readExactly v.length (v ++ rest) = .ok (v, v.length, rest) := by
  simp [readExactly]

/-- How the two readers classify a response a server writes: `Request` returns
the data unless the error is non-empty; `ReadResponse` hands the data to the
callback and reports the whole length, except that it rejects an empty data with
an empty error as malformed. -/
theorem readResponse_classifies {r : Response} {bs : Bytes} (h : r.encodeScale = .ok bs) :
    readResponse readExactly bs =
      (if r.error ≠ [] then .error (.server r.error)
        else if r.data = [] then .error .malformed else .ok (some r.data, bs.length)) ∧
    request bs = (if r.error ≠ [] then .error (.server r.error) else .ok r.data) := by
  have hdec := Response.roundTrips.2.2 r bs h []
  rw [List.append_nil] at hdec
  refine ⟨?_, by simp only [request, hdec]⟩
  have hv : r.valid := (Response.roundTrips.1 r).2 ⟨bs, h⟩
  rw [Response.encodeScale_of_valid hv, Except.ok.injEq] at h
  subst h
  have hd : r.data.length < 2 ^ (8 * 4) := by unfold Response.valid at hv; omega
  have he := decodeByteSliceWithLimit_encode (by decide) (encodeByteSliceWithLimit_ok hv.2) []
  rw [List.append_nil] at he
  simp only [readResponse, List.append_assoc, decodeCompact_encodeCompact le_rfl (by decide) hd]
  by_cases h0 : r.data = []
  · simp [h0, he]
  · have hl : r.data.length ≠ 0 := by simpa using h0
    simp [hl, readExactly_append, he, h0, Nat.add_assoc]

theorem readResponse_classifies_single_byte :
    (⟨[1], []⟩ : Response).encodeScale = .ok [4, 1, 0] ∧
    (readResponse readExactly [4, 1, 0] =
        (if ([] : Bytes) ≠ [] then .error (.server []) else if ([1] : Bytes) = [] then .error .malformed
          else .ok (some [1], [4, 1, 0].length)) ∧
      request [4, 1, 0] = (if ([] : Bytes) ≠ [] then .error (.server []) else .ok [1])) :=
  ⟨rfl, @readResponse_classifies ⟨[1], []⟩ [4, 1, 0] rfl⟩

/-- A handler that returns no data and no error makes the server write `[0, 0]`:
`Request` returns the empty data, while `ReadResponse` reports a malformed
response without calling the callback. -/
theorem readResponse_rejects_empty_response :
    wrapHandler (.ok []) = .ok ([0, 0], none) ∧
    Response.decodeScale [0, 0] = .ok (⟨[], []⟩, 2, []) ∧
    request [0, 0] = .ok [] ∧
    readResponse readExactly [0, 0] = .error .malformed :=
  ⟨rfl, rfl, rfl, rfl⟩

end Spacemesh.Server
