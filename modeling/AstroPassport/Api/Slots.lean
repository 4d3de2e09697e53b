import AstroPassport.Api.Handler
import AstroPassport.Lib.Semaphore
import AstroPassport.Lib.Transition

set_option autoImplicit false

/-! # Admission slots

Any number of requests at once in the handler of `app/api.py`. One event loop runs them, so that a
handler is left only at its awaits: an event is the arrival of a request, with all that is done
before the first await, or one way in which an await of one handler ends, with all that is done up
to the next await or through the outer `finally`. What an await yields is left to the event: a
value, any exception, a timeout among them, or the cancellation of the handler.

First one handler is cut at its awaits (`Segment`), and `Drives` relates the pieces to the handler
of the other module: whatever the awaits yield, the pieces run one after another are `handle`. Then
`apiStep_cases` says once what an event can do, and the invariant `ApiInv` is kept by every step:
the free slots and those held by handlers make up four, and each handler has returned what it took.
`slots_conserved` states for every run what follows for the queue and for each handler. -/

namespace AstroPassport

variable {Req LReq Res Resp : Type}

/-! ## One handler between its awaits -/

/-- The awaits of an admitted handler, each with what is needed after it. -/
inductive Await (Req LReq : Type) where
  /-- `await asyncio.to_thread(authenticate, ...)`. -/
  | authenticating
  /-- `await asyncio.to_thread(reserve_quota, ...)`. -/
  | reserving (length : Option ℕ)
  /-- `async for chunk in request.stream()`, within its timeout; the chunks are still to come. -/
  | streaming (length : Option ℕ) (body : List Byte) (chunks : List (List Byte))
  /-- The await of the science port, within its timeout. -/
  | calculating (value : Req ⊕ LReq)

/-- How an await ends. -/
inductive Resumption (Res : Type) where
  | authenticated (key : Option KeyRecord)
  | reserved (granted : Bool)
  /-- The next message of the stream. -/
  | received
  | calculated (result : Res)
  | raised (e : PyException)
  | cancelled

/-- What a handler does to the slots, and the calls it makes. -/
inductive HandlerAct where
  | takeSlot
  | authenticate
  | reserveQuota (keyId : String)
  | science (lahiri : Bool)
  | returnSlot
  deriving DecidableEq

/-- Where the code after an await leads: to the next await, past some calls, or to a reply. -/
inductive Segment (Req LReq Resp : Type) where
  | await (acts : List HandlerAct) (next : Await Req LReq)
  | reply (reply : Reply Resp)

/-- After authentication. -/
def afterAuthenticate (r : HttpRequest) : Option KeyRecord → Segment Req LReq Resp
  | none => .reply (.error 401 .unauthorized)
  | some key =>
    match checkHeaders r with
    | .error (status, code) => .reply (.error status code)
    | .ok length => .await [.reserveQuota key.keyId] (.reserving length)

/-- After the reservation. -/
def afterReserve (r : HttpRequest) (length : Option ℕ) : Bool → Segment Req LReq Resp
  | false => .reply (.error 429 .rateLimited)
  | true => .await [] (.streaming length [] r.chunks)

/-- The call of the science port. -/
def callScience (p : Ports Req LReq Res Resp) (value : Req ⊕ LReq) : Segment Req LReq Resp :=
  if value.isRight && p.calculateLahiri.isNone then .reply (exceptReply .scienceUnavailable)
  else .await [.science value.isRight] (.calculating value)

/-- After the last chunk. -/
def afterBody (p : Ports Req LReq Res Resp) (length : Option ℕ) (body : List Byte) :
    Segment Req LReq Resp :=
  if length.isSome ∧ length ≠ some body.length then .reply (.error 400 .invalidRequest)
  else
    match parseRequest p body with
    | .ok value => callScience p value
    | .error .valueError => .reply (.error 422 .invalidRequest)
    | .error .typeError => .reply (.error 422 .invalidRequest)
    | .error .recursionError => .reply (.error 422 .invalidRequest)
    | .error e => .reply (exceptReply e)

/-- The body of the loop over the stream, or what follows the loop. -/
def afterReceive (p : Ports Req LReq Res Resp) (r : HttpRequest) (length : Option ℕ)
    (body : List Byte) : List (List Byte) → Segment Req LReq Resp
  | chunk :: chunks =>
    if maxBody < body.length + chunk.length then .reply (.error 413 .tooLarge)
    else .await [] (.streaming length (body ++ chunk) chunks)
  | [] =>
    match r.streamEnd with
    | .complete => afterBody p length body
    | .raised e => .reply (exceptReply e)
    | .cancelled => .reply .cancelled

/-- After science: re-validation and the response. -/
def afterScience (p : Ports Req LReq Res Resp) (lahiri : Bool) (result : Res) : Reply Resp :=
  match p.revalidate lahiri result with
  | .error e => exceptReply e
  | .ok checked =>
    match p.render checked with
    | .error e => exceptReply e
    | .ok () => .ok checked

/-- The code after an await, up to the outer `finally`; a way to end that is not one of that await
    does not apply. -/
def resume (p : Ports Req LReq Res Resp) (r : HttpRequest) :
    Await Req LReq → Resumption Res → Option (Segment Req LReq Resp)
  | _, .raised e => some (.reply (exceptReply e))
  | _, .cancelled => some (.reply .cancelled)
  | .authenticating, .authenticated key => some (afterAuthenticate r key)
  | .reserving length, .reserved granted => some (afterReserve r length granted)
  | .streaming length body chunks, .received => some (afterReceive p r length body chunks)
  | .calculating value, .calculated result =>
    some (.reply (afterScience p value.isRight result))
  | _, _ => none

/-- The checks before `slots.get_nowait()`; the reply of the first that fails. -/
def refusal (enabled : Bool) (r : HttpRequest) : Option (ℕ × ErrorCode) :=
  if ¬ enabled then some (503, .disabled)
  else if r.scheme ≠ "https".toList ∨ r.queryString ≠ [] then some (400, .invalidRequest)
  else if maxHeaders < r.headerBytes then some (413, .tooLarge)
  else if singleHeaders.any fun name => 1 < (r.getlist name).length then some (400, .invalidRequest)
  else none

/-! ## The service -/

/-- Where the handler of a request has got to: at an `await`, or over with its reply. -/
inductive HandlerPhase (Req LReq Resp : Type) where
  | awaiting (a : Await Req LReq)
  | ended (reply : Reply Resp)

/-- A request that arrived, where its handler has got to, and what the handler did. -/
structure HandlerRun (Req LReq Resp : Type) where
  request : HttpRequest
  phase : HandlerPhase Req LReq Resp
  trace : List HandlerAct

/-- `slots`, the handlers in the order of arrival, and those whose `put_nowait` raised `QueueFull`.
    The items of the queue are all `None`, so that it is its length. -/
structure ApiState (Req LReq Resp : Type) where
  slots : BoundedSemaphore 4
  handlers : List (HandlerRun Req LReq Resp)
  queueFull : List ℕ

/-- A request arrives, or the `await` of a handler is resumed. -/
inductive ApiEvent (Res : Type) where
  | arrive (r : HttpRequest)
  | resume (i : ℕ) (how : Resumption Res)

/-- `install_api`: the queue is filled and no request has come. -/
def ApiState.installed : ApiState Req LReq Resp where
  slots := .new 4
  handlers := []
  queueFull := []

example : (((some (⟨0, Nat.zero_le _⟩ : BoundedSemaphore 4)).bind fun q => q.release).bind fun q =>
    q.release.bind fun q => q.release.bind fun q => q.release) = some (.new 4) := rfl

namespace ApiState

/-- The handler at a place of the list, replaced. -/
def put (s : ApiState Req LReq Resp) (i : ℕ) (h : HandlerRun Req LReq Resp) :
    ApiState Req LReq Resp :=
  { s with handlers := s.handlers.set i h }

/-- A reply without a slot. -/
def refuse (s : ApiState Req LReq Resp) (r : HttpRequest) (reply : ℕ × ErrorCode) :
    ApiState Req LReq Resp :=
  { s with handlers := s.handlers ++ [⟨r, .ended (.error reply.1 reply.2), []⟩] }

/-- The handler up to its first await. -/
def arrive (enabled : Bool) (s : ApiState Req LReq Resp) (r : HttpRequest) :
    ApiState Req LReq Resp :=
  match refusal enabled r with
  | some reply => s.refuse r reply
  | none =>
    match s.slots.tryAcquire with
    | none => s.refuse r (503, .busy)
    | some slots =>
      { s with slots, handlers := s.handlers ++
          [⟨r, .awaiting .authenticating, [.takeSlot, .authenticate]⟩] }

/-- The outer `finally`, on the way to a reply. -/
def finish (s : ApiState Req LReq Resp) (i : ℕ) (h : HandlerRun Req LReq Resp)
    (reply : Reply Resp) : ApiState Req LReq Resp :=
  match s.slots.release with
  | some slots =>
    { s.put i { h with phase := .ended reply, trace := h.trace ++ [.returnSlot] } with slots }
  | none => { s.put i { h with phase := .ended .escaped } with queueFull := s.queueFull ++ [i] }

/-- What comes of the code after an await. -/
def proceed (s : ApiState Req LReq Resp) (i : ℕ) (h : HandlerRun Req LReq Resp) :
    Segment Req LReq Resp → ApiState Req LReq Resp
  | .await acts next => s.put i { h with phase := .awaiting next, trace := h.trace ++ acts }
  | .reply reply => s.finish i h reply

end ApiState

/-- One event, where it applies. -/
def apiStep (p : Ports Req LReq Res Resp) (enabled : Bool) (s : ApiState Req LReq Resp) :
    ApiEvent Res → Option (ApiState Req LReq Resp)
  | .arrive r => some (s.arrive enabled r)
  | .resume i how => do
    let h ← s.handlers[i]?
    match h.phase with
    | .awaiting a => (resume p h.request a how).map (s.proceed i h)
    | .ended _ => none

/-- Between `get_nowait` and the outer `finally`. -/
def HandlerRun.holdsSlot (h : HandlerRun Req LReq Resp) : Bool :=
  match h.phase with
  | .awaiting _ => true
  | .ended _ => false

/-! ## One handler alone -/

/-- The checks of the handler are those before the queue and then the queue. -/
theorem earlyReply_eq (env : HandlerEnv) (r : HttpRequest) :
    earlyReply env r =
      (refusal env.enabled r).or (if env.slotFree then none else some (503, .busy)) := by
  unfold earlyReply refusal
  split
  · rfl
  split
  · rfl
  split
  · rfl
  split
  · rfl
  cases env.slotFree <;> rfl

/-- The awaits from here on can end in such a way that the handler replies this. -/
inductive Drives (p : Ports Req LReq Res Resp) (r : HttpRequest) :
    Segment Req LReq Resp → Reply Resp → Prop where
  | reply (reply : Reply Resp) : Drives p r (.reply reply) reply
  | await {acts : List HandlerAct} {next : Await Req LReq} {segment : Segment Req LReq Resp}
      {reply : Reply Resp} (how : Resumption Res) (h : resume p r next how = some segment)
      (hrest : Drives p r segment reply) : Drives p r (.await acts next) reply

namespace Drives

variable {p : Ports Req LReq Res Resp} {r : HttpRequest} {acts : List HandlerAct}
  {next : Await Req LReq}

theorem raised (e : PyException) : Drives p r (.await acts next) (exceptReply e) :=
  .await (.raised e) (by cases next <;> rfl) (.reply _)

theorem cancelled : Drives p r (.await acts next) .cancelled :=
  .await .cancelled (by cases next <;> rfl) (.reply _)

end Drives

section Alone

variable (p : Ports Req LReq Res Resp) (r : HttpRequest)

theorem respond_reply (quota : QuotaDb) (lahiri : Bool) (result : Res) :
    (respond p quota lahiri (.value result)).reply = afterScience p lahiri result := by
  rcases hcheck : p.revalidate lahiri result with e | checked
  · simp only [respond, afterScience, hcheck]
  · rcases hrender : p.render checked with e | _
    · simp only [respond, afterScience, hcheck, hrender]
    · simp only [respond, afterScience, hcheck, hrender]

theorem answer_drives (quota : QuotaDb) (acts : List HandlerAct) (value : Req ⊕ LReq)
    (answer : Awaited Res) :
    Drives p r (.await acts (.calculating value)) (respond p quota value.isRight answer).reply := by
  rcases answer with result | e | _
  · rw [respond_reply]
    exact .await (.calculated result) rfl (.reply _)
  · exact .raised e
  · exact .cancelled

theorem runScience_drives (quota : QuotaDb) (value : Req ⊕ LReq) :
    Drives p r (callScience p value) (runScience p quota value).reply := by
  rcases value with value | value
  · exact answer_drives p r quota _ (.inl value) (p.calculate value)
  · rcases hmethod : p.calculateLahiri with _ | method
    · simp only [callScience, runScience, hmethod, Sum.isRight_inr, Option.isNone_none, Bool.and_self,
        if_true]
      exact .reply _
    · simp only [callScience, runScience, hmethod, Sum.isRight_inr, Option.isNone_some,
        Bool.and_false, Bool.false_eq_true, if_false]
      exact answer_drives p r quota _ (.inr value) (method value)

theorem validate_drives (quota : QuotaDb) {length : Option ℕ} {body : List Byte}
    (hlength : ¬ (length.isSome ∧ length ≠ some body.length)) :
    Drives p r (afterBody p length body) (validate p quota body).reply := by
  rw [afterBody, if_neg hlength]
  rcases hparse : parseRequest p body with e | value
  · cases e <;> simp only [validate, hparse] <;> exact .reply _
  · simp only [validate, hparse]
    exact runScience_drives p r quota value

/-- What becomes of a body that was read. -/
def bodyReply (p : Ports Req LReq Res Resp) (quota : QuotaDb) (length : Option ℕ) :
    BodyRead → Reply Resp
  | .tooLarge => .error 413 .tooLarge
  | .raised e => exceptReply e
  | .cancelled => .cancelled
  | .body body =>
    if length.isSome ∧ length ≠ some body.length then .error 400 .invalidRequest
    else (validate p quota body).reply

theorem receive_reply (quota : QuotaDb) (length : Option ℕ) :
    (receive p quota r length).reply =
      bodyReply p quota length (readBody [] r.chunks r.streamEnd) := by
  unfold receive
  rcases readBody [] r.chunks r.streamEnd with body | _ | e | _
  · show (ite _ _ _ : Handled Resp).reply = ite _ _ _
    split <;> rfl
  · rfl
  · rfl
  · rfl

/-- Chunk by chunk the loop comes to what `readBody` says of all of them. -/
theorem receive_drives (quota : QuotaDb) (length : Option ℕ) (chunks : List (List Byte))
    (body : List Byte) :
    Drives p r (afterReceive p r length body chunks)
      (bodyReply p quota length (readBody body chunks r.streamEnd)) := by
  induction chunks generalizing body with
  | nil =>
      rcases hend : r.streamEnd with _ | e | _
      · simp only [afterReceive, readBody, hend, bodyReply]
        by_cases hlength : length.isSome ∧ length ≠ some body.length
        · rw [if_pos hlength, afterBody, if_pos hlength]
          exact .reply _
        · rw [if_neg hlength]
          exact validate_drives p r quota hlength
      · simp only [afterReceive, readBody, hend]
        exact .reply _
      · simp only [afterReceive, readBody, hend]
        exact .reply _
  | cons chunk chunks ih =>
      by_cases hbig : maxBody < body.length + chunk.length
      · simp only [afterReceive, readBody, if_pos hbig]
        exact .reply _
      · simp only [afterReceive, readBody, if_neg hbig]
        exact .await .received rfl (ih (body ++ chunk))

theorem charge_drives (env : HandlerEnv) (key : KeyRecord) (length : Option ℕ)
    (acts : List HandlerAct) :
    Drives p r (.await acts (.reserving length)) (charge p env r key length).reply := by
  unfold charge
  rcases env.quotaHop with _ | _ | _
  · rcases hreserved : (reserveQuota env.quota env.quotaFault key env.now).1 with e | granted
    · cases e
      simp only [Handled.after, hreserved]
      exact .raised .securityState
    · rcases granted with _ | _
      · simp only [Handled.after, hreserved]
        exact .await (.reserved false) rfl (.reply _)
      · simp only [Handled.after, hreserved]
        rw [receive_reply]
        refine .await (.reserved true) rfl ?_
        exact .await .received rfl (receive_drives p r _ length r.chunks [])
  · exact .cancelled
  · exact .cancelled

/-- The handler by itself is one of the handlers of the service: its awaits can end as its
    surroundings say. -/
theorem handle_drives (env : HandlerEnv) (h : earlyReply env r = none) :
    Drives p r (.await [.takeSlot, .authenticate] .authenticating) (handle p env r).reply := by
  rw [handle, h]
  show Drives p r _ (admission p env r).reply
  unfold admission
  rcases env.authenticateHop with _ | _ | _
  · rcases hkey : p.authenticate ((r.get? "authorization").getD []) env.now with e | _ | key
    · simp only [Handled.after]
      exact .raised e
    · simp only [Handled.after]
      exact .await (.authenticated none) rfl (.reply _)
    · refine .await (.authenticated (some key)) rfl ?_
      rcases hheaders : checkHeaders r with ⟨status, code⟩ | length
      · simp only [Handled.after, hheaders, afterAuthenticate]
        exact .reply _
      · simp only [Handled.after, hheaders, afterAuthenticate]
        exact charge_drives p r env key length _
  · exact .cancelled
  · exact .cancelled

end Alone

/-! ## What an event can do -/

section Segments

variable {p : Ports Req LReq Res Resp} {r : HttpRequest}

/-- Neither taking a slot nor returning one. -/
def HandlerAct.isCall : HandlerAct → Bool
  | .takeSlot | .returnSlot => false
  | _ => true

/-- A segment that goes on makes calls only. -/
def Segment.CallsOnly : Segment Req LReq Resp → Prop
  | .await acts _ => ∀ act ∈ acts, act.isCall = true
  | .reply _ => True

theorem callsOnly_afterBody (length : Option ℕ) (body : List Byte) :
    (afterBody p length body).CallsOnly := by
  unfold afterBody
  split
  · trivial
  · split
    · unfold callScience
      split
      · trivial
      · simp [Segment.CallsOnly, HandlerAct.isCall]
    all_goals trivial

/-- Between its first await and its `finally` a handler neither takes nor returns a slot. -/
theorem callsOnly_resume {a : Await Req LReq} {how : Resumption Res} {segment : Segment Req LReq Resp}
    (h : resume p r a how = some segment) : segment.CallsOnly := by
  unfold resume at h
  split at h
  · cases h
    trivial
  · cases h
    trivial
  · next key =>
      cases h
      unfold afterAuthenticate
      split
      · trivial
      · split
        · trivial
        · simp [Segment.CallsOnly, HandlerAct.isCall]
  · next length granted =>
      cases h
      cases granted
      · trivial
      · simp [afterReserve, Segment.CallsOnly]
  · next length body chunks =>
      cases h
      unfold afterReceive
      split
      · split
        · trivial
        · simp [Segment.CallsOnly]
      · split
        · exact callsOnly_afterBody length body
        all_goals trivial
  · cases h
    trivial
  · cases h

end Segments

section Moves

variable {p : Ports Req LReq Res Resp} {enabled : Bool} {s s' : ApiState Req LReq Resp}
  {e : ApiEvent Res}

/-- What an event can do: refuse or admit a request, take an admitted handler to another await, or
    take it through its `finally`. -/
inductive ApiMove (s : ApiState Req LReq Resp) : ApiState Req LReq Resp → Prop where
  | refuse (r : HttpRequest) (reply : ℕ × ErrorCode) : ApiMove s (s.refuse r reply)
  | admitted (r : HttpRequest) {slots : BoundedSemaphore 4} (hslots : s.slots.tryAcquire = some slots) :
      ApiMove s { s with slots, handlers := s.handlers ++
        [⟨r, .awaiting .authenticating, [.takeSlot, .authenticate]⟩] }
  | await {i : ℕ} {h : HandlerRun Req LReq Resp} {acts : List HandlerAct} (next : Await Req LReq)
      (hh : s.handlers[i]? = some h) (hholds : h.holdsSlot = true)
      (hcalls : ∀ act ∈ acts, act.isCall = true) :
      ApiMove s (s.put i { h with phase := .awaiting next, trace := h.trace ++ acts })
  | finish {i : ℕ} {h : HandlerRun Req LReq Resp} (reply : Reply Resp)
      (hh : s.handlers[i]? = some h) (hholds : h.holdsSlot = true) :
      ApiMove s (s.finish i h reply)

theorem apiStep_cases (h : apiStep p enabled s e = some s') : ApiMove s s' := by
  cases e with
  | arrive r =>
      cases h
      unfold ApiState.arrive
      split
      · exact .refuse r _
      · split
        · exact .refuse r _
        · next hslots => exact .admitted r hslots
  | resume i how =>
      simp only [apiStep, Option.bind_eq_bind, Option.bind_eq_some_iff] at h
      obtain ⟨handler, hh, h⟩ := h
      split at h
      · next a hphase =>
          obtain ⟨segment, hsegment, rfl⟩ := Option.map_eq_some_iff.mp h
          have hholds : handler.holdsSlot = true := by rw [HandlerRun.holdsSlot, hphase]
          have hcalls := callsOnly_resume hsegment
          cases segment with
          | await acts next => exact .await next hh hholds hcalls
          | reply reply => exact .finish reply hh hholds
      · cases h

end Moves

/-! ## The account, along every run -/

/-- A handler that holds a slot took one and returned none; any other returned what it took, one at
    most. -/
def HandlerRun.Balanced (h : HandlerRun Req LReq Resp) : Prop :=
  (h.holdsSlot = true → h.trace.count .takeSlot = 1 ∧ h.trace.count .returnSlot = 0) ∧
    (h.holdsSlot = false →
      h.trace.count .returnSlot = h.trace.count .takeSlot ∧ h.trace.count .takeSlot ≤ 1)

/-- Every slot is in the queue or held by one handler, and each handler's own account is right. -/
structure ApiInv (s : ApiState Req LReq Resp) : Prop where
  slots : Accounts s.slots s.handlers (·.holdsSlot)
  neverFull : s.queueFull = []
  balanced : ∀ h ∈ s.handlers, h.Balanced

theorem count_of_isCall {acts : List HandlerAct} (h : ∀ act ∈ acts, act.isCall = true)
    {act : HandlerAct} (hact : act.isCall = false) : acts.count act = 0 := by
  rw [List.count_eq_zero]
  intro hmem
  rw [h act hmem] at hact
  cases hact

namespace ApiInv

variable {s : ApiState Req LReq Resp} {i : ℕ} {h : HandlerRun Req LReq Resp}

theorem installed : ApiInv (.installed : ApiState Req LReq Resp) :=
  ⟨rfl, rfl, fun _ hmem => by cases hmem⟩

theorem refuse (hinv : ApiInv s) (r : HttpRequest) (reply : ℕ × ErrorCode) :
    ApiInv (s.refuse r reply) := by
  refine ⟨hinv.slots.snoc_of_not rfl, hinv.neverFull, ?_⟩
  intro h hmem
  rcases List.mem_append.mp hmem with hold | hnew
  · exact hinv.balanced h hold
  · rw [List.mem_singleton.mp hnew]
    exact ⟨fun hholds => (Bool.false_ne_true hholds).elim, fun _ => ⟨rfl, Nat.zero_le _⟩⟩

theorem admitted (hinv : ApiInv s) (r : HttpRequest) {slots : BoundedSemaphore 4}
    (hslots : s.slots.tryAcquire = some slots) :
    ApiInv { s with slots, handlers := s.handlers ++
      [⟨r, .awaiting .authenticating, [.takeSlot, .authenticate]⟩] } := by
  refine ⟨hinv.slots.snoc_of_tryAcquire rfl hslots, hinv.neverFull, ?_⟩
  intro h hmem
  rcases List.mem_append.mp hmem with hold | hnew
  · exact hinv.balanced h hold
  · rw [List.mem_singleton.mp hnew]
    exact ⟨fun _ => ⟨rfl, rfl⟩, fun hholds => (Bool.false_ne_true hholds.symm).elim⟩

theorem await (hinv : ApiInv s) {acts : List HandlerAct} (next : Await Req LReq)
    (hh : s.handlers[i]? = some h) (hholds : h.holdsSlot = true)
    (hcalls : ∀ act ∈ acts, act.isCall = true) :
    ApiInv (s.put i { h with phase := .awaiting next, trace := h.trace ++ acts }) := by
  refine ⟨hinv.slots.set_of_eq hh hholds.symm, hinv.neverFull, ?_⟩
  intro h' hmem
  rcases List.mem_or_eq_of_mem_set hmem with hold | rfl
  · exact hinv.balanced h' hold
  · obtain ⟨htake, hreturn⟩ := (hinv.balanced h (List.mem_of_getElem? hh)).1 hholds
    refine ⟨fun _ => ⟨?_, ?_⟩, fun hnot => (Bool.false_ne_true hnot.symm).elim⟩
    · show (h.trace ++ acts).count .takeSlot = 1
      rw [List.count_append, htake, count_of_isCall hcalls rfl]
    · show (h.trace ++ acts).count .returnSlot = 0
      rw [List.count_append, hreturn, count_of_isCall hcalls rfl]

/-- A handler that holds a slot finds the queue short of one. -/
theorem finish_eq (hinv : ApiInv s) (hh : s.handlers[i]? = some h) (hholds : h.holdsSlot = true)
    (reply : Reply Resp) : ∃ slots, s.slots.release = some slots ∧ s.finish i h reply =
      { s.put i { h with phase := .ended reply, trace := h.trace ++ [.returnSlot] } with slots } := by
  obtain ⟨slots, hrelease⟩ := hinv.slots.release_of_held hh hholds
  exact ⟨slots, hrelease, by simp only [ApiState.finish, hrelease]⟩

theorem finish (hinv : ApiInv s) (hh : s.handlers[i]? = some h) (hholds : h.holdsSlot = true)
    (reply : Reply Resp) : ApiInv (s.finish i h reply) := by
  obtain ⟨slots, hrelease, heq⟩ := hinv.finish_eq hh hholds reply
  rw [heq]
  refine ⟨hinv.slots.set_of_release hh hholds rfl hrelease, hinv.neverFull, ?_⟩
  intro h' hmem
  rcases List.mem_or_eq_of_mem_set hmem with hold | rfl
  · exact hinv.balanced h' hold
  · obtain ⟨htake, hreturn⟩ := (hinv.balanced h (List.mem_of_getElem? hh)).1 hholds
    refine ⟨fun hnot => (Bool.false_ne_true hnot).elim, fun _ => ?_⟩
    have htake' : (h.trace ++ [HandlerAct.returnSlot]).count HandlerAct.takeSlot = 1 := by
      rw [List.count_append, htake]
      rfl
    have hreturn' : (h.trace ++ [HandlerAct.returnSlot]).count HandlerAct.returnSlot = 1 := by
      rw [List.count_append, hreturn]
      rfl
    exact ⟨hreturn'.trans htake'.symm, htake'.le⟩

end ApiInv

section Runs

variable {p : Ports Req LReq Res Resp} {enabled : Bool} {s s' : ApiState Req LReq Resp}
  {e : ApiEvent Res}

theorem apiStep_inv (h : apiStep p enabled s e = some s') (hinv : ApiInv s) : ApiInv s' := by
  cases apiStep_cases h with
  | refuse r reply => exact hinv.refuse r reply
  | admitted r hslots => exact hinv.admitted r hslots
  | await next hh hholds hcalls => exact hinv.await next hh hholds hcalls
  | finish reply hh hholds => exact hinv.finish hh hholds reply

theorem reachable_apiInv (h : Reachable (apiStep p enabled) .installed s) : ApiInv s :=
  h.invariant .installed fun _ _ _ hstep => apiStep_inv hstep

/-- A handler that is over is left as it is. -/
theorem apiStep_ended {i : ℕ} {h : HandlerRun Req LReq Resp} (hstep : apiStep p enabled s e = some s')
    (hh : s.handlers[i]? = some h) (hended : h.holdsSlot = false) : s'.handlers[i]? = some h := by
  have happend : ∀ new, (s.handlers ++ [new])[i]? = some h := by
    intro new
    rw [List.getElem?_append_left (List.getElem?_eq_some_iff.mp hh).1, hh]
  have hset : ∀ (j : ℕ) (h' new : HandlerRun Req LReq Resp), s.handlers[j]? = some h' →
      h'.holdsSlot = true → (s.handlers.set j new)[i]? = some h := by
    intro j h' new hj hholds
    have hne : j ≠ i := by
      rintro rfl
      rw [hj, Option.some.injEq] at hh
      rw [hh, hended] at hholds
      cases hholds
    rw [List.getElem?_set_ne hne, hh]
  cases apiStep_cases hstep with
  | refuse r reply => exact happend _
  | admitted r hslots => exact happend _
  | await next hj hholds hcalls => exact hset _ _ _ hj hholds
  | finish reply hj hholds =>
      unfold ApiState.finish
      split
      · exact hset _ _ _ hj hholds
      · exact hset _ _ _ hj hholds

theorem run_ended {i : ℕ} {h : HandlerRun Req LReq Resp} {events : List (ApiEvent Res)}
    (hrun : run (apiStep p enabled) s events = some s') (hh : s.handlers[i]? = some h)
    (hended : h.holdsSlot = false) : s'.handlers[i]? = some h :=
  run_invariant (I := fun s => s.handlers[i]? = some h)
    (fun _ _ _ hstep hh => apiStep_ended hstep hh hended) hrun hh

/-- An exception and a cancellation end a handler at whichever await it is. -/
theorem apiStep_ends {i : ℕ} {h : HandlerRun Req LReq Resp} {how : Resumption Res}
    (hh : s.handlers[i]? = some h) (hholds : h.holdsSlot = true)
    (hends : how = .cancelled ∨ ∃ e, how = .raised e) :
    ∃ reply, apiStep p enabled s (.resume i how) = some (s.finish i h reply) := by
  unfold HandlerRun.holdsSlot at hholds
  split at hholds
  · next a hphase =>
      simp only [apiStep, Option.bind_eq_bind, hh, Option.bind_some, hphase]
      rcases hends with rfl | ⟨e, rfl⟩
      · exact ⟨.cancelled, by cases a <;> rfl⟩
      · exact ⟨exceptReply e, by cases a <;> rfl⟩
  · cases hholds

/-- Without a free slot every request is answered at once. -/
theorem apiStep_arrive_of_none (h : s.slots.value = 0) (r : HttpRequest) :
    apiStep p enabled s (.arrive r) =
      some (s.refuse r ((refusal enabled r).getD (503, .busy))) := by
  have hnone := BoundedSemaphore.tryAcquire_eq_none.2 h
  rw [apiStep, ApiState.arrive, hnone]
  rcases refusal enabled r with _ | reply
  · rfl
  · rfl

end Runs

/-- **Admission slots are conserved.** In every reachable state the free slots and the handlers
    between `get_nowait` and the outer `finally` make up 4, and no `put_nowait` has found the queue
    full. A handler that took a slot took one, and has returned it once if it is over and not yet
    otherwise; at whichever await it is, an exception or its cancellation returns it. A request that
    arrives when no slot is free is answered at once, busy unless one of the checks before the queue
    refuses it, and its handler never does anything. -/
theorem slots_conserved (p : Ports Req LReq Res Resp) (enabled : Bool)
    {s : ApiState Req LReq Resp} (h : Reachable (apiStep p enabled) .installed s) :
    s.slots.value + s.handlers.countP (·.holdsSlot) = 4 ∧
      s.queueFull = [] ∧
      (∀ h ∈ s.handlers, .takeSlot ∈ h.trace →
        h.trace.count .takeSlot = 1 ∧
          h.trace.count .returnSlot = if h.holdsSlot then 0 else 1) ∧
      (∀ i h how, s.handlers[i]? = some h → h.holdsSlot = true →
        (how = .cancelled ∨ ∃ e, how = .raised e) →
        ∃ s' reply, apiStep p enabled s (.resume i how) = some s' ∧
          s'.slots.value = s.slots.value + 1 ∧
          s'.handlers = s.handlers.set i
            { h with phase := .ended reply, trace := h.trace ++ [.returnSlot] }) ∧
      ∀ r, s.slots.value = 0 →
        ∃ s' h, apiStep p enabled s (.arrive r) = some s' ∧ s'.slots = s.slots ∧
          s'.handlers = s.handlers ++ [h] ∧ h.trace = [] ∧
          (∃ reply, (refusal enabled r).getD (503, .busy) = reply ∧
            h.phase = .ended (.error reply.1 reply.2)) ∧
          ∀ events s'', run (apiStep p enabled) s' events = some s'' →
            s''.handlers[s.handlers.length]? = some h := by
  have hinv := reachable_apiInv h
  refine ⟨hinv.slots, hinv.neverFull, ?_, ?_, ?_⟩
  · intro h hmem htake
    obtain ⟨hheld, hended⟩ := hinv.balanced h hmem
    by_cases hholds : h.holdsSlot = true
    · rw [if_pos hholds]
      exact hheld hholds
    · rw [if_neg hholds]
      obtain ⟨hreturn, hle⟩ := hended (Bool.eq_false_of_not_eq_true hholds)
      have hpos : 0 < h.trace.count .takeSlot := List.count_pos_iff.mpr htake
      omega
  -- the slot is out, so its release cannot exceed the bound
  · intro i h how hh hholds hends
    obtain ⟨reply, hstep⟩ := @apiStep_ends _ _ _ _ p enabled s i h how hh hholds hends
    obtain ⟨slots, hrelease, heq⟩ := hinv.finish_eq hh hholds reply
    refine ⟨s.finish i h reply, reply, hstep, ?_, ?_⟩
    · rw [heq]
      exact BoundedSemaphore.value_of_release hrelease
    · rw [heq]
      rfl
  -- an arrival that finds no slot ends in one step and no later event touches it
  · intro r hnone
    refine ⟨_, _, apiStep_arrive_of_none hnone r, rfl, rfl, rfl, ⟨_, rfl, rfl⟩, ?_⟩
    intro events s'' hrun
    exact run_ended hrun List.getElem?_concat_length rfl

/-! ## Requests that meet a full house -/

/-- A service whose models take every body. -/
def idlePorts : Ports Unit Unit Unit Unit where
  authenticate _ _ := .ok none
  uniqueJson _ := .ok .none
  passportRequest _ := .ok ()
  lahiriRequest _ := .ok ()
  calculate _ := .value ()
  calculateLahiri := none
  revalidate _ _ := .ok ()
  render _ := .ok ()

/-- A complete `https` request without a header. -/
def secureRequest : HttpRequest := ⟨"https".toList, [], [], [], .complete⟩

/-- The same request over `http`. -/
def plainRequest : HttpRequest := ⟨"http".toList, [], [], [], .complete⟩

/-- With all four slots taken a plain `http` request is told that it is invalid, not that the
    service is busy. -/
theorem refused_before_busy : ∃ s s' h,
    run (apiStep idlePorts true) .installed [.arrive secureRequest, .arrive secureRequest,
      .arrive secureRequest, .arrive secureRequest] = some s ∧
    s.slots.value = 0 ∧
    apiStep idlePorts true s (.arrive plainRequest) = some s' ∧
    s'.handlers[4]? = some h ∧
    h.phase = .ended (.error 400 .invalidRequest) ∧ h.phase ≠ .ended (.error 503 .busy) :=
  ⟨_, _, _, rfl, rfl, rfl, rfl, rfl, fun h => by cases h⟩

/-- A fifth request, with four handlers at their first await. -/
theorem slots_conserved_full : ∃ s s',
    run (apiStep idlePorts true) .installed [.arrive secureRequest, .arrive secureRequest,
      .arrive secureRequest, .arrive secureRequest] = some s ∧
    s.queueFull = [] ∧
    apiStep idlePorts true s (.arrive secureRequest) = some s' ∧
    s'.slots.value = 0 := by
  refine ⟨_, _, rfl, ?_, rfl, rfl⟩
  exact (slots_conserved idlePorts true ⟨[.arrive secureRequest, .arrive secureRequest,
    .arrive secureRequest, .arrive secureRequest], rfl⟩).2.1

end AstroPassport
