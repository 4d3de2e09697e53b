import AstroPassport.Api.Handler

set_option autoImplicit false

/-! # What a request can set off

Science runs last and the quota is charged once. What a request can set off is read from the trace
the handler returns: for each stage, from the last to the first, one lemma says which traces it can
leave and what each of them says about the request and the quota table (`respond_spec`,
`runScience_spec`, `validate_spec`, `receive_spec`, `charge_spec`, `admission_spec`), so that no
stage is unfolded twice.

Together they give `handle_cases`, the list of all traces of a request. The order of the gates, the
single charge, the meaning of a status 200 and what a cancelled request leaves behind are read off
that list, and `handler_gated` states them for every request and all surroundings. That the body is
bounded does not depend on how it arrives: `readBody_eq` says what the chunks amount to, and two
ways of cutting one body into chunks are handled alike (`handle_chunking`). -/

namespace AstroPassport

variable {Req LReq Res Resp : Type}

/-! ## The body -/

/-- What the loop makes of a body of an acceptable size. -/
def StreamEnd.finish (body : List Byte) : StreamEnd → BodyRead
  | .complete => .body body
  | .raised e => .raised e
  | .cancelled => .cancelled

/-- The loop decides on the concatenation of the chunks: a body too long is refused at whichever
    chunk crosses the limit, and no other way of cutting it changes that. -/
theorem readBody_eq (streamEnd : StreamEnd) (chunks : List (List Byte)) {body : List Byte}
    (h : body.length ≤ maxBody) :
    readBody body chunks streamEnd =
      if maxBody < (body ++ chunks.flatten).length then .tooLarge
      else streamEnd.finish (body ++ chunks.flatten) := by
  induction chunks generalizing body with
  | nil =>
      have hnot : ¬ maxBody < (body ++ ([] : List (List Byte)).flatten).length := by simpa using h
      rw [if_neg hnot]
      cases streamEnd <;> simp [readBody, StreamEnd.finish]
  | cons chunk chunks ih =>
      rw [readBody]
      by_cases hbig : maxBody < body.length + chunk.length
      · have htotal : maxBody < (body ++ (chunk :: chunks).flatten).length := by
          simp only [List.flatten_cons, List.length_append]
          omega
        rw [if_pos hbig, if_pos htotal]
      · have hle : (body ++ chunk).length ≤ maxBody := by
          rw [List.length_append]
          omega
        rw [if_neg hbig, ih hle, List.flatten_cons, List.append_assoc]

/-- Chunkings of one body are read alike. -/
theorem readBody_chunking {chunks chunks' : List (List Byte)} (h : chunks.flatten = chunks'.flatten)
    (streamEnd : StreamEnd) : readBody [] chunks streamEnd = readBody [] chunks' streamEnd := by
  have hnil : ([] : List Byte).length ≤ maxBody := Nat.zero_le _
  rw [readBody_eq streamEnd chunks hnil, readBody_eq streamEnd chunks' hnil, h]

theorem readBody_eq_body {chunks : List (List Byte)} {streamEnd : StreamEnd} {body : List Byte}
    (h : readBody [] chunks streamEnd = .body body) :
    body = chunks.flatten ∧ body.length ≤ maxBody ∧ streamEnd = .complete := by
  rw [readBody_eq streamEnd chunks (Nat.zero_le _), List.nil_append] at h
  split at h
  · cases h
  · next hsize =>
      cases streamEnd with
      | complete =>
          cases h
          exact ⟨rfl, not_lt.mp hsize, rfl⟩
      | raised e => cases h
      | cancelled => cases h

/-! ## The last stages -/

/-- No exception is answered with status 200. -/
theorem exceptReply_status (e : PyException) :
    (exceptReply e : Reply Resp).status ≠ some 200 := by
  cases e with
  | scienceFailure code => cases code <;> simp [exceptReply, scienceStatus, Reply.status]
  | _ => simp [exceptReply, Reply.status]

/-- What science answers to a validated request; nothing when the port lacks the method. -/
def scienceAnswer (p : Ports Req LReq Res Resp) : Req ⊕ LReq → Option (Awaited Res)
  | .inl value => some (p.calculate value)
  | .inr value => p.calculateLahiri.map fun method => method value

/-- The reply is a result of science for this request that re-validated as the response model of its
    profile. -/
def Delivered (p : Ports Req LReq Res Resp) (value : Req ⊕ LReq) (reply : Reply Resp) : Prop :=
  ∃ result response, scienceAnswer p value = some (.value result) ∧
    p.revalidate value.isRight result = .ok response ∧ reply = .ok response

theorem respond_spec (p : Ports Req LReq Res Resp) (quota : QuotaDb) (lahiri : Bool)
    (answer : Awaited Res) :
    (respond p quota lahiri answer).quota = quota ∧ (respond p quota lahiri answer).trace = [] ∧
    ((respond p quota lahiri answer).reply.status = some 200 → ∃ result response,
      answer = .value result ∧ p.revalidate lahiri result = .ok response ∧
      (respond p quota lahiri answer).reply = .ok response) := by
  cases answer with
  | cancelled => exact ⟨rfl, rfl, fun h => by cases h⟩
  | raised e => exact ⟨rfl, rfl, fun h => absurd h (exceptReply_status e)⟩
  | value result =>
      cases hcheck : p.revalidate lahiri result with
      | error e =>
          have h : respond p quota lahiri (.value result) = ⟨exceptReply e, quota, []⟩ := by
            simp only [respond, hcheck]
          rw [h]
          exact ⟨rfl, rfl, fun h => absurd h (exceptReply_status e)⟩
      | ok response =>
          cases hrender : p.render response with
          | error e =>
              have h : respond p quota lahiri (.value result) = ⟨exceptReply e, quota, []⟩ := by
                simp only [respond, hcheck, hrender]
              rw [h]
              exact ⟨rfl, rfl, fun h => absurd h (exceptReply_status e)⟩
          | ok _ =>
              have h : respond p quota lahiri (.value result) = ⟨.ok response, quota, []⟩ := by
                simp only [respond, hcheck, hrender]
              rw [h]
              exact ⟨rfl, rfl, fun _ => ⟨result, response, rfl, hcheck, rfl⟩⟩

/-- A stage from the validation on: it leaves the table alone, and runs science for a parsed request
    or not at all. -/
def Scientific (p : Ports Req LReq Res Resp) (quota : QuotaDb) (body : List Byte)
    (h : Handled Resp) : Prop :=
  h.quota = quota ∧
  (h.trace = [] ∧ h.reply.status ≠ some 200 ∨
    ∃ value, parseRequest p body = .ok value ∧ h.trace = [.science value.isRight] ∧
      (h.reply.status = some 200 → Delivered p value h.reply))

theorem runScience_spec (p : Ports Req LReq Res Resp) (quota : QuotaDb) {body : List Byte}
    {value : Req ⊕ LReq} (hparse : parseRequest p body = .ok value) :
    Scientific p quota body (runScience p quota value) := by
  cases value with
  | inl value =>
      obtain ⟨hquota, htrace, hok⟩ := respond_spec p quota false (p.calculate value)
      refine ⟨hquota, Or.inr ⟨.inl value, hparse, ?_, fun h => ?_⟩⟩
      · simp [runScience, Handled.after, htrace]
      · obtain ⟨result, response, hanswer, hcheck, hreply⟩ := hok h
        exact ⟨result, response, congrArg some hanswer, hcheck, hreply⟩
  | inr value =>
      cases hmethod : p.calculateLahiri with
      | none =>
          simp only [runScience, hmethod]
          exact ⟨rfl, Or.inl ⟨rfl, exceptReply_status .scienceUnavailable⟩⟩
      | some method =>
          obtain ⟨hquota, htrace, hok⟩ := respond_spec p quota true (method value)
          simp only [runScience, hmethod]
          refine ⟨hquota, Or.inr ⟨.inr value, hparse, ?_, fun h => ?_⟩⟩
          · simp [Handled.after, htrace]
          · obtain ⟨result, response, hanswer, hcheck, hreply⟩ := hok h
            refine ⟨result, response, ?_, hcheck, hreply⟩
            simp only [scienceAnswer, hmethod, Option.map_some, hanswer]

theorem validate_spec (p : Ports Req LReq Res Resp) (quota : QuotaDb) (body : List Byte) :
    Scientific p quota body (validate p quota body) := by
  cases hparse : parseRequest p body with
  | ok value =>
      simp only [validate, hparse]
      exact runScience_spec p quota hparse
  | error e =>
      have hrefused : ∀ e', (exceptReply e' : Reply Resp).status ≠ some 200 := exceptReply_status
      refine ⟨?_, Or.inl ⟨?_, ?_⟩⟩
      · cases e <;> simp only [validate, hparse]
      · cases e <;> simp only [validate, hparse]
      · cases e <;> simp only [validate, hparse] <;> first | exact hrefused _ | simp [Reply.status]

/-! ## The gates -/

/-- Everything that stands before science. -/
structure ScienceGate (p : Ports Req LReq Res Resp) (env : HandlerEnv) (r : HttpRequest)
    (key : KeyRecord) (value : Req ⊕ LReq) : Prop where
  enabled : env.enabled = true
  https : r.scheme = "https".toList
  noQuery : r.queryString = []
  headerBudget : r.headerBytes ≤ maxHeaders
  single : ∀ name ∈ singleHeaders, (r.getlist name).length ≤ 1
  slot : env.slotFree = true
  authenticated : p.authenticate ((r.get? "authorization").getD []) env.now = .ok (some key)
  headers : ∃ length, checkHeaders r = .ok length ∧
    ∀ n, length = some n → r.chunks.flatten.length = n
  charged : (reserveQuota env.quota env.quotaFault key env.now).1 = .ok true
  received : r.streamEnd = .complete
  bodySize : r.chunks.flatten.length ≤ maxBody
  json : ∃ raw, p.uniqueJson r.chunks.flatten = .ok raw ∧ isLahiri raw = value.isRight
  model : (∃ v, value = .inl v ∧ p.passportRequest r.chunks.flatten = .ok v) ∨
    ∃ v, value = .inr v ∧ p.lahiriRequest r.chunks.flatten = .ok v

theorem parseRequest_eq_ok {p : Ports Req LReq Res Resp} {body : List Byte} {value : Req ⊕ LReq}
    (h : parseRequest p body = .ok value) :
    (∃ raw, p.uniqueJson body = .ok raw ∧ isLahiri raw = value.isRight) ∧
    ((∃ v, value = .inl v ∧ p.passportRequest body = .ok v) ∨
      ∃ v, value = .inr v ∧ p.lahiriRequest body = .ok v) := by
  obtain ⟨raw, hraw, h⟩ := bind_eq_ok.1 h
  by_cases hl : isLahiri raw = true
  · rw [if_pos hl, map_eq_ok] at h
    obtain ⟨v, hv, rfl⟩ := h
    exact ⟨⟨raw, hraw, hl⟩, Or.inr ⟨v, rfl, hv⟩⟩
  · rw [if_neg hl, map_eq_ok] at h
    obtain ⟨v, hv, rfl⟩ := h
    exact ⟨⟨raw, hraw, by simpa using hl⟩, Or.inl ⟨v, rfl, hv⟩⟩

/-- The checks before the slot have all passed when none of them replied. -/
theorem earlyReply_eq_none {env : HandlerEnv} {r : HttpRequest} (h : earlyReply env r = none) :
    env.enabled = true ∧ r.scheme = "https".toList ∧ r.queryString = [] ∧
      r.headerBytes ≤ maxHeaders ∧ (∀ name ∈ singleHeaders, (r.getlist name).length ≤ 1) ∧
      env.slotFree = true := by
  unfold earlyReply at h
  split_ifs at h with henabled htarget hbudget hsingle hslot
  rw [not_or, not_not, not_not] at htarget
  refine ⟨henabled, htarget.1, htarget.2, not_lt.mp hbudget, ?_, hslot⟩
  intro name hname
  by_contra hmany
  exact hsingle (List.any_eq_true.mpr ⟨name, hname, by simpa using hmany⟩)

/-- The part of the gates that is checked after the charge. -/
def BodyGate (p : Ports Req LReq Res Resp) (r : HttpRequest) (length : Option ℕ)
    (value : Req ⊕ LReq) : Prop :=
  parseRequest p r.chunks.flatten = .ok value ∧ r.streamEnd = .complete ∧
    r.chunks.flatten.length ≤ maxBody ∧ ∀ n, length = some n → r.chunks.flatten.length = n

/-- From the charge on, science runs behind the gates of the body or not at all. -/
theorem receive_spec (p : Ports Req LReq Res Resp) (quota : QuotaDb) (r : HttpRequest)
    (length : Option ℕ) (h : Handled Resp) (hreceive : receive p quota r length = h) :
    h.quota = quota ∧
    (h.trace = [] ∧ h.reply.status ≠ some 200 ∨
      ∃ value, BodyGate p r length value ∧ h.trace = [.science value.isRight] ∧
        (h.reply.status = some 200 → Delivered p value h.reply)) := by
  cases hread : readBody [] r.chunks r.streamEnd with
  | tooLarge =>
      simp only [receive, hread] at hreceive
      subst hreceive
      exact ⟨rfl, Or.inl ⟨rfl, by simp [Reply.status]⟩⟩
  | raised e =>
      simp only [receive, hread] at hreceive
      subst hreceive
      exact ⟨rfl, Or.inl ⟨rfl, exceptReply_status e⟩⟩
  | cancelled =>
      simp only [receive, hread] at hreceive
      subst hreceive
      exact ⟨rfl, Or.inl ⟨rfl, by simp [Reply.status]⟩⟩
  | body body =>
      obtain ⟨rfl, hsize, hend⟩ := readBody_eq_body hread
      simp only [receive, hread] at hreceive
      split at hreceive
      · subst hreceive
        exact ⟨rfl, Or.inl ⟨rfl, by simp [Reply.status]⟩⟩
      · next hlength =>
          -- the length was declared right, or the body would have been refused
          have hdeclared : ∀ n, length = some n → r.chunks.flatten.length = n := by
            rintro n rfl
            by_contra hne
            exact hlength ⟨rfl, fun heq => hne (Option.some.inj heq).symm⟩
          subst hreceive
          obtain ⟨hquota, hrefused | ⟨value, hparse, htrace, hok⟩⟩ :=
            validate_spec p quota r.chunks.flatten
          · exact ⟨hquota, Or.inl hrefused⟩
          · exact ⟨hquota, Or.inr ⟨value, ⟨hparse, hend, hsize, hdeclared⟩, htrace, hok⟩⟩

/-- A refused header is not answered with status 200. -/
theorem checkHeaders_status {r : HttpRequest} {status : ℕ} {code : ErrorCode}
    (h : checkHeaders r = .error (status, code)) : status ≠ 200 := by
  unfold checkHeaders at h
  split_ifs at h
  · cases h; decide
  · cases h; decide
  · cases h; decide
  · split at h
    · cases h
    · split at h
      · cases h; decide
      · split at h
        · cases h; decide
        · cases h

/-- What a request leaves: nothing, a slot taken and returned, a slot and one charge, or all of them
    with science in between, behind every gate. -/
inductive HandledCases (p : Ports Req LReq Res Resp) (env : HandlerEnv) (r : HttpRequest)
    (h : Handled Resp) : Prop where
  | early (trace : h.trace = []) (quota : h.quota = env.quota) (status : h.reply.status ≠ some 200)
  | admitted (effects : List Effect)
      (only : effects = [] ∨ effects = [.authenticate])
      (trace : h.trace = .takeSlot :: (effects ++ [.returnSlot])) (quota : h.quota = env.quota)
      (status : h.reply.status ≠ some 200)
  | charged (key : KeyRecord)
      (authenticated : p.authenticate ((r.get? "authorization").getD []) env.now = .ok (some key))
      (trace : h.trace = [.takeSlot, .authenticate,
        .reserve key.keyId (reserveQuota env.quota env.quotaFault key env.now).1, .returnSlot])
      (quota : h.quota = (reserveQuota env.quota env.quotaFault key env.now).2)
      (status : h.reply.status ≠ some 200)
  | science (key : KeyRecord) (value : Req ⊕ LReq) (gate : ScienceGate p env r key value)
      (trace : h.trace = [.takeSlot, .authenticate, .reserve key.keyId (.ok true),
        .science value.isRight, .returnSlot])
      (quota : h.quota = (reserveQuota env.quota env.quotaFault key env.now).2)
      (status : h.reply.status = some 200 → Delivered p value h.reply)

/-- What the reservation stage leaves: an untouched table, one charge, or one granted charge and
    science behind the gates of the body. -/
theorem charge_spec (p : Ports Req LReq Res Resp) (env : HandlerEnv) (r : HttpRequest)
    (key : KeyRecord) (length : Option ℕ) (h : Handled Resp)
    (hcharge : charge p env r key length = h) :
    (h.trace = [] ∧ h.quota = env.quota ∧ h.reply.status ≠ some 200) ∨
    (h.trace = [.reserve key.keyId (reserveQuota env.quota env.quotaFault key env.now).1] ∧
      h.quota = (reserveQuota env.quota env.quotaFault key env.now).2 ∧
      h.reply.status ≠ some 200) ∨
    ∃ value, BodyGate p r length value ∧
      (reserveQuota env.quota env.quotaFault key env.now).1 = .ok true ∧
      h.trace = [.reserve key.keyId (.ok true), .science value.isRight] ∧
      h.quota = (reserveQuota env.quota env.quotaFault key env.now).2 ∧
      (h.reply.status = some 200 → Delivered p value h.reply) := by
  -- only a finished reservation that grants lets the body be read
  cases hhop : env.quotaHop with
  | neverStarted =>
      simp only [charge, hhop] at hcharge
      subst hcharge
      exact Or.inl ⟨rfl, rfl, by simp [Reply.status]⟩
  | cancelled =>
      simp only [charge, hhop] at hcharge
      subst hcharge
      exact Or.inr (Or.inl ⟨rfl, rfl, by simp [Reply.status]⟩)
  | finishes =>
      cases hreserved : (reserveQuota env.quota env.quotaFault key env.now).1 with
      | error e =>
          simp only [charge, hhop, hreserved] at hcharge
          subst hcharge
          exact Or.inr (Or.inl ⟨rfl, rfl, exceptReply_status .securityState⟩)
      | ok granted =>
          cases granted with
          | false =>
              simp only [charge, hhop, hreserved] at hcharge
              subst hcharge
              exact Or.inr (Or.inl ⟨rfl, rfl, by simp [Handled.after, Reply.status]⟩)
          | true =>
              simp only [charge, hhop, hreserved] at hcharge
              subst hcharge
              obtain ⟨hquota, ⟨htrace, hstatus⟩ | ⟨value, hgate, htrace, hok⟩⟩ :=
                receive_spec p (reserveQuota env.quota env.quotaFault key env.now).2 r length _ rfl
              · refine Or.inr (Or.inl ⟨?_, hquota, hstatus⟩)
                simp only [Handled.after, htrace, List.append_nil]
              · refine Or.inr (Or.inr ⟨value, hgate, rfl, ?_, hquota, hok⟩)
                simp only [Handled.after, htrace, List.singleton_append]

/-- What the admitted part of the handler leaves. -/
theorem admission_spec (p : Ports Req LReq Res Resp) (env : HandlerEnv) (r : HttpRequest)
    (h : Handled Resp) (hadmission : admission p env r = h) :
    ((h.trace = [] ∨ h.trace = [.authenticate]) ∧ h.quota = env.quota ∧
      h.reply.status ≠ some 200) ∨
    ∃ key length, p.authenticate ((r.get? "authorization").getD []) env.now = .ok (some key) ∧
      checkHeaders r = .ok length ∧ h = (charge p env r key length).after [.authenticate] := by
  cases hhop : env.authenticateHop with
  | neverStarted =>
      simp only [admission, hhop] at hadmission
      subst hadmission
      exact Or.inl ⟨Or.inl rfl, rfl, by simp [Reply.status]⟩
  | cancelled =>
      simp only [admission, hhop] at hadmission
      subst hadmission
      exact Or.inl ⟨Or.inr rfl, rfl, by simp [Reply.status]⟩
  | finishes =>
      cases hauth : p.authenticate ((r.get? "authorization").getD []) env.now with
      | error e =>
          simp only [admission, hhop, hauth] at hadmission
          subst hadmission
          exact Or.inl ⟨Or.inr rfl, rfl, exceptReply_status e⟩
      | ok found =>
          cases found with
          | none =>
              simp only [admission, hhop, hauth] at hadmission
              subst hadmission
              exact Or.inl ⟨Or.inr rfl, rfl, by simp [Handled.after, Reply.status]⟩
          | some key =>
              cases hheaders : checkHeaders r with
              | error refused =>
                  obtain ⟨status, code⟩ := refused
                  have hstatus : status ≠ 200 := checkHeaders_status hheaders
                  simp only [admission, hhop, hauth, hheaders] at hadmission
                  subst hadmission
                  exact Or.inl ⟨Or.inr rfl, rfl, by simpa [Handled.after, Reply.status] using hstatus⟩
              | ok length =>
                  simp only [admission, hhop, hauth, hheaders] at hadmission
                  exact Or.inr ⟨key, length, rfl, rfl, hadmission.symm⟩

theorem handle_cases (p : Ports Req LReq Res Resp) (env : HandlerEnv) (r : HttpRequest) :
    HandledCases p env r (handle p env r) := by
  cases hearly : earlyReply env r with
  | some reply =>
      obtain ⟨status, code⟩ := reply
      -- no early reply is a success
      have hstatus : status ≠ 200 := by
        unfold earlyReply at hearly
        split_ifs at hearly <;> (cases hearly; decide)
      have h : handle p env r = ⟨.error status code, env.quota, []⟩ := by
        simp only [handle, hearly]
      rw [h]
      exact .early rfl rfl (by simpa [Reply.status] using hstatus)
  | none =>
      obtain ⟨henabled, hscheme, hquery, hbudget, hsingle, hslot⟩ := earlyReply_eq_none hearly
      have h : handle p env r = { admission p env r with
          trace := .takeSlot :: ((admission p env r).trace ++ [.returnSlot]) } := by
        simp only [handle, hearly]
      rw [h]
      -- refused at the headers, or charged
      rcases admission_spec p env r _ rfl with ⟨htrace, hquota, hstatus⟩ |
        ⟨key, length, hauth, hheaders, hadmission⟩
      · exact .admitted (admission p env r).trace htrace rfl hquota hstatus
      · rw [hadmission]
        rcases charge_spec p env r key length _ rfl with ⟨htrace, hquota, hstatus⟩ |
          ⟨htrace, hquota, hstatus⟩ | ⟨value, ⟨hparse, hend, hsize, hdeclared⟩, hok, htrace, hquota, hdone⟩
        · refine .admitted [.authenticate] (Or.inr rfl) ?_ hquota hstatus
          simp only [Handled.after, htrace, List.append_nil]
        · refine .charged key hauth ?_ hquota hstatus
          simp only [Handled.after, htrace, List.cons_append, List.nil_append]
        · obtain ⟨hjson, hmodel⟩ := parseRequest_eq_ok hparse
          refine .science key value ?_ ?_ hquota hdone
          · exact ⟨henabled, hscheme, hquery, hbudget, hsingle, hslot, hauth,
              ⟨length, hheaders, hdeclared⟩, hok, hend, hsize, hjson, hmodel⟩
          · simp only [Handled.after, htrace, List.cons_append, List.nil_append]

/-! ## Consequences -/

/-- The handler looks at the chunks through the loop that reads them only. -/
theorem handle_chunking (p : Ports Req LReq Res Resp) (env : HandlerEnv) (r : HttpRequest)
    {chunks : List (List Byte)} (h : chunks.flatten = r.chunks.flatten) :
    handle p env { r with chunks := chunks } = handle p env r := by
  have hreceive : ∀ quota length,
      receive p quota { r with chunks := chunks } length = receive p quota r length := by
    intro quota length
    simp only [receive, readBody_chunking h]
  have hcharge : ∀ key length,
      charge p env { r with chunks := chunks } key length = charge p env r key length := by
    intro key length
    simp only [charge, hreceive]
  have hadmission : admission p env { r with chunks := chunks } = admission p env r := by
    simp only [admission, hcharge]
    rfl
  simp only [handle, hadmission]
  rfl

/-- An effect that calls science. -/
def Effect.isScience : Effect → Bool
  | .science _ => true
  | _ => false

/-- An effect that runs `reserve_quota`. -/
def Effect.isReserve : Effect → Bool
  | .reserve _ _ => true
  | _ => false

/-- A granted reservation is exactly one more unit on the credential's row. -/
def ChargedOne (env : HandlerEnv) (key : KeyRecord) (quota : QuotaDb) : Prop :=
  ∃ bucket used, quotaBucket env.now = some bucket ∧
    usedBefore env.quota env.quotaFault key.keyId bucket = .ok used ∧
    quota = env.quota.replace ⟨key.keyId, .integer bucket, .integer (used + 1)⟩

/-- **Zero work before the gates.** For every request in every surroundings: science is called at
    most once, and if it is, every gate has been passed and the trace shows slot, authentication,
    granted charge and science in this order; `reserve_quota` runs at most once, its result and
    nothing else moves the table, and once it is granted exactly one unit is consumed whatever
    happens next; cutting the body into other chunks changes nothing; and a status 200 carries a
    result of science that re-validated as the response model of the request's profile. -/
theorem handler_gated (p : Ports Req LReq Res Resp) (env : HandlerEnv) (r : HttpRequest) :
    (handle p env r).trace.countP Effect.isScience ≤ 1 ∧
    (∀ lahiri, .science lahiri ∈ (handle p env r).trace → ∃ key value,
      value.isRight = lahiri ∧ ScienceGate p env r key value ∧
      (handle p env r).trace = [.takeSlot, .authenticate, .reserve key.keyId (.ok true),
        .science lahiri, .returnSlot]) ∧
    (handle p env r).trace.countP Effect.isReserve ≤ 1 ∧
    ((∀ keyId result, .reserve keyId result ∉ (handle p env r).trace) →
      (handle p env r).quota = env.quota) ∧
    (∀ keyId result, .reserve keyId result ∈ (handle p env r).trace → ∃ key : KeyRecord,
      key.keyId = keyId ∧
      p.authenticate ((r.get? "authorization").getD []) env.now = .ok (some key) ∧
      reserveQuota env.quota env.quotaFault key env.now = (result, (handle p env r).quota) ∧
      (result = .ok true → ChargedOne env key (handle p env r).quota)) ∧
    (∀ chunks, chunks.flatten = r.chunks.flatten →
      handle p env { r with chunks := chunks } = handle p env r) ∧
    ((handle p env r).reply.status = some 200 → ∃ key value,
      ScienceGate p env r key value ∧ Delivered p value (handle p env r).reply) := by
  -- a granted reservation is the one write of the window
  have hcharged : ∀ key : KeyRecord,
      (reserveQuota env.quota env.quotaFault key env.now).1 = .ok true →
      ChargedOne env key (reserveQuota env.quota env.quotaFault key env.now).2 := by
    intro key hok
    obtain ⟨bucket, used, hbucket, hused, -, hreplace⟩ := reserveQuota_granted hok
    exact ⟨bucket, used, hbucket, hused, hreplace⟩
  have hchunks : ∀ chunks, chunks.flatten = r.chunks.flatten →
      handle p env { r with chunks := chunks } = handle p env r :=
    fun chunks h => handle_chunking p env r h
  -- how far the request came: each stage fixes the trace and the quota table
  cases handle_cases p env r with
  | early htrace hquota hstatus =>
      rw [htrace]
      refine ⟨by simp, ?_, by simp, fun _ => hquota, ?_, hchunks, fun h => absurd h hstatus⟩
      · intro lahiri h
        cases h
      · intro keyId result h
        cases h
  | admitted effects honly htrace hquota hstatus =>
      rw [htrace]
      rcases honly with rfl | rfl
      · refine ⟨by decide, ?_, by decide, fun _ => hquota, ?_, hchunks, fun h => absurd h hstatus⟩
        · intro lahiri h
          simp at h
        · intro keyId result h
          simp at h
      · refine ⟨by decide, ?_, by decide, fun _ => hquota, ?_, hchunks, fun h => absurd h hstatus⟩
        · intro lahiri h
          simp at h
        · intro keyId result h
          simp at h
  | charged key hauth htrace hquota hstatus =>
      rw [htrace]
      refine ⟨by simp [Effect.isScience], ?_, by simp [List.countP_cons, Effect.isReserve], ?_, ?_, hchunks,
        fun h => absurd h hstatus⟩
      · intro lahiri h
        simp at h
      · intro h
        exact absurd (by simp) (h key.keyId (reserveQuota env.quota env.quotaFault key env.now).1)
      · intro keyId result h
        obtain ⟨rfl, rfl⟩ : keyId = key.keyId ∧
            result = (reserveQuota env.quota env.quotaFault key env.now).1 := by simpa using h
        rw [hquota]
        exact ⟨key, rfl, hauth, rfl, hcharged key⟩
  | science key value hgate htrace hquota hdone =>
      rw [htrace]
      refine ⟨by simp [List.countP_cons, Effect.isScience], ?_, by simp [List.countP_cons, Effect.isReserve], ?_, ?_, hchunks,
        fun h => ⟨key, value, hgate, hdone h⟩⟩
      · intro lahiri h
        obtain rfl : lahiri = value.isRight := by simpa using h
        exact ⟨key, value, rfl, hgate, rfl⟩
      · intro h
        exact absurd (by simp) (h key.keyId (.ok true))
      · intro keyId result h
        obtain ⟨rfl, rfl⟩ : keyId = key.keyId ∧ result = .ok true := by simpa using h
        rw [hquota]
        exact ⟨key, rfl, hgate.authenticated, Prod.ext hgate.charged rfl,
          fun _ => hcharged key hgate.charged⟩

end AstroPassport
