import AstroPassport.Lib.Json.Python
import AstroPassport.Science.Errors
import AstroPassport.Security.Quota

set_option autoImplicit false

/-! # The HTTP handler of `app/api.py`

One request through `calculate`: the checks made at once, the admission slot, authentication, the
header checks, the quota, the streamed body, validation, science and the response. What lies outside
the handler is given: the credential file (through `authenticate`), the quota table and its
failures, the JSON decoder and the request and response models, the science port, and the way every
await ends. The handler returns its reply, the quota table it leaves and the trace of what it set
off; each stage is a function of its own, and a stage prepends its effects to those of the next.

The stages stand in the order a reader of the source meets them from the end: `respond` needs no
other, `handle` uses them all. Every exception the source names is a constructor of `PyException`,
and `exceptReply` is the one table from exceptions to replies that the `except` clauses make up. -/

namespace AstroPassport

/-! ## Replies and exceptions -/

/-- The exceptions the handler tells apart; `other` is any further subclass of `Exception`. -/
inductive PyException where
  | securityState
  | scienceUnavailable
  | scienceFailure (code : ErrorCode)
  | timeout
  | valueError
  | typeError
  | recursionError
  | other
  deriving DecidableEq

/-- How an await ends: with a value, with an exception, or with the cancellation of the handler. -/
inductive Awaited (α : Type) where
  | value (a : α)
  | raised (e : PyException)
  | cancelled

/-- What the server makes of a request. -/
inductive Reply (Resp : Type) where
  | ok (response : Resp)
  | error (status : ℕ) (code : ErrorCode)
  /-- An exception left the handler. -/
  | escaped
  | cancelled

/-- The status of a reply. -/
def Reply.status {Resp : Type} : Reply Resp → Option ℕ
  | .ok _ => some 200
  | .error status _ => some status
  | .escaped => none
  | .cancelled => none

/-- The `except` clauses around the admitted part of the handler. -/
def exceptReply {Resp : Type} : PyException → Reply Resp
  | .securityState => .error 503 .stateUnavailable
  | .scienceUnavailable => .error 503 .scienceUnavailable
  | .scienceFailure code =>
    match scienceStatus code with
    | some status => .error status code
    | none => .escaped
  | .timeout => .error 408 .timeout
  | _ => .error 500 .internalError

/-! ## The request -/

/-- How the stream of a request body ends: with the last chunk, or otherwise. -/
inductive StreamEnd where
  | complete
  | raised (e : PyException)
  | cancelled

/-- A request as ASGI delivers it; header names are in lower case. -/
structure HttpRequest where
  scheme : List Char
  queryString : List Byte
  headers : List (List Byte × List Byte)
  chunks : List (List Byte)
  streamEnd : StreamEnd

/-- Latin-1 text. -/
def latin1 (s : List Byte) : List Char := s.map fun b => Char.ofNat b.val

/-- The values of a header, in order. -/
def HttpRequest.getlist (r : HttpRequest) (name : String) : List (List Char) :=
  (r.headers.filter fun h => latin1 h.1 = name.toList).map fun h => latin1 h.2

/-- The first value of a header. -/
def HttpRequest.get? (r : HttpRequest) (name : String) : Option (List Char) :=
  (r.getlist name).head?

/-- `MAX_BODY`. -/
def maxBody : ℕ := 16384

/-- `MAX_HEADERS`, over the names and the values of all headers. -/
def maxHeaders : ℕ := 16384

/-- The combined size of the headers. -/
def HttpRequest.headerBytes (r : HttpRequest) : ℕ :=
  (r.headers.map fun h => h.1.length + h.2.length).sum

/-- The headers that may occur once only. -/
def singleHeaders : List String :=
  ["authorization", "content-length", "content-type", "x-apt-contract-version"]

/-- `isascii`, `isdecimal` and then `int`. -/
def decimal? (s : List Char) : Option ℕ :=
  match spanDigits s with
  | ([], _) => none
  | (ds, []) => some (fromDigits ds)
  | (_, _ :: _) => none

/-- The checks on version, media type, encoding and declared length; the declared length if any.
    Lower-casing the ASCII letters decides the comparison with an ASCII media type. -/
def checkHeaders (r : HttpRequest) : Except (ℕ × ErrorCode) (Option ℕ) :=
  if r.get? "x-apt-contract-version" ≠ some "1.0.0".toList then .error (406, .unsupportedVersion)
  else if ((r.get? "content-type").getD []).map Char.toLower ≠ "application/json".toList then
    .error (415, .unsupportedMediaType)
  else if r.get? "content-encoding" ≠ none ∧ r.get? "content-encoding" ≠ some "identity".toList then
    .error (415, .unsupportedMediaType)
  else
    match r.get? "content-length" with
    | none => .ok none
    | some length =>
      match decimal? length with
      | none => .error (400, .invalidRequest)
      | some n => if 8 < length.length ∨ maxBody < n then .error (413, .tooLarge) else .ok (some n)

/-- The body as the loop over the stream leaves it. -/
inductive BodyRead where
  | body (bytes : List Byte)
  | tooLarge
  | raised (e : PyException)
  | cancelled

/-- The loop over the stream. -/
def readBody (body : List Byte) : List (List Byte) → StreamEnd → BodyRead
  | [], .complete => .body body
  | [], .raised e => .raised e
  | [], .cancelled => .cancelled
  | chunk :: chunks, streamEnd =>
    if maxBody < body.length + chunk.length then .tooLarge
    else readBody (body ++ chunk) chunks streamEnd

/-! ## The surroundings of the handler -/

/-- How a hop to a worker thread ends: the work finishes, or the handler is cancelled while the work
    runs on, or before it has started. -/
inductive Hop where
  | finishes
  | cancelled
  | neverStarted
  deriving DecidableEq

/-- What the handler calls, for request models `Req` and `LReq`, the science port's results `Res`
    and response models `Resp`. -/
structure Ports (Req LReq Res Resp : Type) where
  authenticate : List Char → ℤ → Except PyException (Option KeyRecord)
  uniqueJson : List Byte → Except PyException PyValue
  passportRequest : List Byte → Except PyException Req
  lahiriRequest : List Byte → Except PyException LReq
  calculate : Req → Awaited Res
  /-- Not every science port has this method. -/
  calculateLahiri : Option (LReq → Awaited Res)
  /-- The result through the response model of its profile, Lahiri or not. -/
  revalidate : Bool → Res → Except PyException Resp
  render : Resp → Except PyException Unit

/-- The rest of the state a request meets. -/
structure HandlerEnv where
  enabled : Bool
  slotFree : Bool
  now : ℤ
  authenticateHop : Hop
  quota : QuotaDb
  quotaFault : Option QuotaFault
  quotaHop : Hop

/-- What a request sets off. -/
inductive Effect where
  | takeSlot
  | authenticate
  | reserve (keyId : String) (result : Except SecurityStateError Bool)
  | science (lahiri : Bool)
  | returnSlot

/-- The reply to a request, the quota table it leaves, and its effects in order. -/
structure Handled (Resp : Type) where
  reply : Reply Resp
  quota : QuotaDb
  trace : List Effect

/-- An outcome with effects that came before it. -/
def Handled.after {Resp : Type} (effects : List Effect) (h : Handled Resp) : Handled Resp :=
  { h with trace := effects ++ h.trace }

/-! ## The stages, the last one first -/

variable {Req LReq Res Resp : Type}

/-- Re-validation of the result and the response. -/
def respond (p : Ports Req LReq Res Resp) (quota : QuotaDb) (lahiri : Bool) :
    Awaited Res → Handled Resp
  | .cancelled => ⟨.cancelled, quota, []⟩
  | .raised e => ⟨exceptReply e, quota, []⟩
  | .value result =>
    match p.revalidate lahiri result with
    | .error e => ⟨exceptReply e, quota, []⟩
    | .ok checked =>
      match p.render checked with
      | .error e => ⟨exceptReply e, quota, []⟩
      | .ok () => ⟨.ok checked, quota, []⟩

/-- The call of the science port. -/
def runScience (p : Ports Req LReq Res Resp) (quota : QuotaDb) : Req ⊕ LReq → Handled Resp
  | .inl value => (respond p quota false (p.calculate value)).after [.science false]
  | .inr value =>
    match p.calculateLahiri with
    | none => ⟨exceptReply .scienceUnavailable, quota, []⟩
    | some method => (respond p quota true (method value)).after [.science true]

/-- `isinstance(raw, dict) and raw.get("profile") == "sun-moon-lahiri.v1-mvp"`. -/
def isLahiri : PyValue → Bool
  | .dict ms =>
    match ms.lookup (.str ("profile".toList.map scalar)) with
    | some (.str s) => s = "sun-moon-lahiri.v1-mvp".toList.map scalar
    | _ => false
  | _ => false

/-- `unique_json` and the request model of the profile. -/
def parseRequest (p : Ports Req LReq Res Resp) (body : List Byte) :
    Except PyException (Req ⊕ LReq) :=
  (p.uniqueJson body).bind fun raw =>
    if isLahiri raw then (p.lahiriRequest body).map .inr else (p.passportRequest body).map .inl

/-- Validation of the body. -/
def validate (p : Ports Req LReq Res Resp) (quota : QuotaDb) (body : List Byte) : Handled Resp :=
  match parseRequest p body with
  | .ok value => runScience p quota value
  | .error .valueError => ⟨.error 422 .invalidRequest, quota, []⟩
  | .error .typeError => ⟨.error 422 .invalidRequest, quota, []⟩
  | .error .recursionError => ⟨.error 422 .invalidRequest, quota, []⟩
  | .error e => ⟨exceptReply e, quota, []⟩

/-- Reading the body, within its size and as long as declared. -/
def receive (p : Ports Req LReq Res Resp) (quota : QuotaDb) (r : HttpRequest)
    (length : Option ℕ) : Handled Resp :=
  match readBody [] r.chunks r.streamEnd with
  | .tooLarge => ⟨.error 413 .tooLarge, quota, []⟩
  | .raised e => ⟨exceptReply e, quota, []⟩
  | .cancelled => ⟨.cancelled, quota, []⟩
  | .body body =>
    if length.isSome ∧ length ≠ some body.length then ⟨.error 400 .invalidRequest, quota, []⟩
    else validate p quota body

/-- The reservation of quota. -/
def charge (p : Ports Req LReq Res Resp) (env : HandlerEnv) (r : HttpRequest) (key : KeyRecord)
    (length : Option ℕ) : Handled Resp :=
  let reserved := reserveQuota env.quota env.quotaFault key env.now
  match env.quotaHop with
  | .neverStarted => ⟨.cancelled, env.quota, []⟩
  | .cancelled => ⟨.cancelled, reserved.2, [.reserve key.keyId reserved.1]⟩
  | .finishes =>
    Handled.after [.reserve key.keyId reserved.1] <|
      match reserved.1 with
      | .error .unavailable => ⟨exceptReply .securityState, reserved.2, []⟩
      | .ok false => ⟨.error 429 .rateLimited, reserved.2, []⟩
      | .ok true => receive p reserved.2 r length

/-- Authentication and the header checks. -/
def admission (p : Ports Req LReq Res Resp) (env : HandlerEnv) (r : HttpRequest) : Handled Resp :=
  match env.authenticateHop with
  | .neverStarted => ⟨.cancelled, env.quota, []⟩
  | .cancelled => ⟨.cancelled, env.quota, [.authenticate]⟩
  | .finishes =>
    Handled.after [.authenticate] <|
      match p.authenticate ((r.get? "authorization").getD []) env.now with
      | .error e => ⟨exceptReply e, env.quota, []⟩
      | .ok none => ⟨.error 401 .unauthorized, env.quota, []⟩
      | .ok (some key) =>
        match checkHeaders r with
        | .error (status, code) => ⟨.error status code, env.quota, []⟩
        | .ok length => charge p env r key length

/-- The checks made before a slot is taken; the reply of the first that fails. -/
def earlyReply (env : HandlerEnv) (r : HttpRequest) : Option (ℕ × ErrorCode) :=
  if ¬ env.enabled then some (503, .disabled)
  else if r.scheme ≠ "https".toList ∨ r.queryString ≠ [] then some (400, .invalidRequest)
  else if maxHeaders < r.headerBytes then some (413, .tooLarge)
  else if singleHeaders.any fun name => 1 < (r.getlist name).length then some (400, .invalidRequest)
  else if ¬ env.slotFree then some (503, .busy)
  else none

/-- `calculate`: the slot is returned whatever happens in between. -/
def handle (p : Ports Req LReq Res Resp) (env : HandlerEnv) (r : HttpRequest) : Handled Resp :=
  match earlyReply env r with
  | some (status, code) => ⟨.error status code, env.quota, []⟩
  | none =>
    let h := admission p env r
    { h with trace := .takeSlot :: (h.trace ++ [.returnSlot]) }

end AstroPassport
