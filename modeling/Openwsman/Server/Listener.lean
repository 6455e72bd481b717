import Openwsman.Lib.Pieces
import Openwsman.Libc.Decimal
import Openwsman.Soap.FaultTable
import Openwsman.Soap.Message

/-!
# The HTTP listener

`server_callback` of `wsmand-listener.c` is called by the HTTP engine again and again for one
request: with a part of the body as long as there is more to read, and with some room for output. It
collects the body until it is as long as the header Content-Length says, dispatches the request, and
copies the response into the room that it is given, now and in the calls that follow.

The response ends with the first call that has more room than there is left to send; a call whose
room is filled exactly leaves the end to the next one.
-/

namespace Openwsman

open List Machine Pieces

def soapContentType : String := "application/soap+xml"
def defaultServicePath : String := "/wsman"
def anonIdentifyPath : String := "/wsman-anon/identify"
def defaultCimindicationPath : String := "/cimindicationlistener"

variable {σ β : Type}

/-! ## Requests and calls -/

structure HttpRequest where
  contentLength : Option String
  contentType : Option String
  requestUri : String
  cimExport : Option String := none
  cimExportMethod : Option String := none
  credentials : WsmanAuth := {}

structure ShttpdArg (β : Type) where
  input : List β
  outLen : ℕ
  connectionError : Bool := false

structure InboundMessage (β : Type) where
  request : List β
  msg : WsmanMessage

structure CallbackOut (β : Type) where
  written : List β := []
  body : List β := []
  endOfOutput : Bool := false
  dispatched : Option (InboundMessage β) := none

structure CimIndicationAnswer (β : Type) where
  httpCode : ℕ
  statusCode : ℕ
  faultMsg : Option String
  response : List β

structure ListenerHost (σ β : Type) where
  dispatch : σ → InboundMessage β → σ × ℕ × List β
  cimIndicationCall : σ → Option String → String → List β → σ × CimIndicationAnswer β
  wsmanCheckIdentify : InboundMessage β → Bool
  uBufLoad : String → Option (List β)
  identifyFile : Option String
  anonIdentifyFile : Option String
  bytes : String → List β
  zero : β
  package : String
  nullText : String
  behindHeader : String

structure ListenerState (β : Type) where
  cl : ℕ
  nread : ℕ := 0
  request : List β := []
  response : Option (List β) := none
  len : ℕ := 0
  index : ℕ := 0
  eventing : Bool := false

/-- `arg->state`: not there yet, there, or freed, after which the engine calls no more. -/
inductive ListenerConn (β : Type) where
  | fresh
  | active (state : ListenerState β)
  | freed

/-! ## Buffers -/

def uBufSet (buf data : List β) : List β := if data.isEmpty then buf else data

def uBufAppend (buf data : List β) : List β := if data.isEmpty then buf else buf ++ data

def uBufSteal (buf : List β) : Option (List β) := if buf.isEmpty then none else some buf

/-! ## Headers -/

def checkRequestContentType (req : HttpRequest) : ℕ :=
  match req.contentType with
  | none => wsmanStatusOk
  | some contentType =>
    if soapContentType.toList.isPrefixOf contentType.toList then wsmanStatusOk
    else wsmanStatusUnsupportedMediaType

def behindText (pattern : List Char) : List Char → Option (List Char)
  | [] => if pattern.isEmpty then some [] else none
  | c :: cs =>
    if pattern.isPrefixOf (c :: cs) then some ((c :: cs).drop pattern.length)
    else behindText pattern cs

/-- One character behind `charset` is passed over, also if it is the end of the text. -/
def getRequestEncoding (host : ListenerHost σ β) (req : HttpRequest) : String :=
  match req.contentType.bind fun contentType ↦ behindText "charset".toList contentType.toList with
  | none => "UTF-8"
  | some [] => host.behindHeader
  | some (_ :: encoding) => String.ofList encoding

def shttpdPrintf (host : ListenerHost σ β) (outLen : ℕ) (written : List β) (text : String) :
    List β :=
  let buflen := outLen - written.length
  let bytes := host.bytes text
  if buflen = 0 then written
  else if bytes.length < buflen then written ++ bytes
  else written ++ bytes.take (buflen - 1) ++ [host.zero]

def printAll (host : ListenerHost σ β) (outLen : ℕ) (texts : List String) : List β :=
  texts.foldl (shttpdPrintf host outLen) []

def responseHeaders (host : ListenerHost σ β) (status : ℕ) (encoding : String) (eventing : Bool)
    (len : ℕ) : List String :=
  ["HTTP/1.1 " ++ status.repr ++ " " ++ host.nullText ++ "\r\n",
    "Server: " ++ host.package ++ "\r\n"] ++
  (if eventing then
    ["Content-Type: application/xml; charset=\"utf-8\"\r\n", "CIMExport: MethodResponse\r\n"]
  else ["Content-Type: application/soap+xml;charset=" ++ encoding ++ "\r\n"]) ++
  ["Content-Length: " ++ len.repr ++ "\r\n", "Connection: Close\r\n", "\r\n"]

/-! ## The callback -/

def continueResponse (arg : ShttpdArg β) (s : σ) (state : ListenerState β) (out : CallbackOut β) :
    (σ × ListenerConn β) × CallbackOut β :=
  let k := arg.outLen - out.written.length
  let rest := (state.response.getD []).drop state.index
  if k ≤ state.len - state.index then
    ((s, .active { state with index := state.index + k }),
      { out with written := out.written ++ rest.take k, body := rest.take k })
  else
    let l := state.len - state.index
    ((s, .freed),
      { out with
        written := out.written ++ rest.take l, body := rest.take l, endOfOutput := true })

def sendResponse (host : ListenerHost σ β) (arg : ShttpdArg β) (s : σ) (state : ListenerState β)
    (status : ℕ) (encoding : String) (dispatched : Option (InboundMessage β)) :
    (σ × ListenerConn β) × CallbackOut β :=
  continueResponse arg s state
    { written := printAll host arg.outLen
        (responseHeaders host status encoding state.eventing state.len)
      dispatched := dispatched }

def notFound (host : ListenerHost σ β) (arg : ShttpdArg β) (s : σ) :
    (σ × ListenerConn β) × CallbackOut β :=
  ((s, .freed),
    { written := printAll host arg.outLen ["HTTP/1.0 404 Not foundn\n"], endOfOutput := true })

def ListenerState.withResponse (state : ListenerState β) (response : List β) (eventing : Bool) :
    ListenerState β :=
  { state with
    len := response.length, response := uBufSteal response, index := 0, eventing := eventing }

def inboundMessage (host : ListenerHost σ β) (req : HttpRequest) (body : List β) :
    InboundMessage β where
  request := uBufSet [] body
  msg := { charset := getRequestEncoding host req, authData := req.credentials }

def callDispatcher (host : ListenerHost σ β) (s : σ) (msg : InboundMessage β) :
    σ × ℕ × List β × Option (InboundMessage β) :=
  let dispatched :=
    let (s', status, response) := host.dispatch s msg
    (s', status, response, some msg)
  match host.identifyFile with
  | none => dispatched
  | some idfile =>
    if host.wsmanCheckIdentify msg then
      match host.uBufLoad idfile with
      | none => dispatched
      | some response => (s, wsmanStatusOk, response, none)
    else dispatched

def lastSegment (path : String) : Option String :=
  if path.toList.contains '/' then
    some (String.ofList (path.toList.reverse.takeWhile (· != '/')).reverse)
  else none

def serveRequest (host : ListenerHost σ β) (req : HttpRequest) (arg : ShttpdArg β) (s : σ)
    (state : ListenerState β) : (σ × ListenerConn β) × CallbackOut β :=
  if req.requestUri == defaultServicePath then
    if checkRequestContentType req ≠ wsmanStatusOk then
      sendResponse host arg s state (checkRequestContentType req) "UTF-8" none
    else
      let (s, status, response, dispatched) :=
        callDispatcher host s (inboundMessage host req state.request)
      sendResponse host arg s (state.withResponse response false) status
        (getRequestEncoding host req) dispatched
  else if defaultCimindicationPath.toList.isPrefixOf req.requestUri.toList then
    if req.cimExportMethod.isSome && req.cimExport.isSome then
      let (s, answer) := host.cimIndicationCall s (lastSegment req.requestUri)
        (getRequestEncoding host req) (uBufSet [] state.request)
      match answer.faultMsg with
      | some cimError =>
        continueResponse arg s state
          { written := printAll host arg.outLen
              ["HTTP/1.1 " ++ answer.httpCode.repr ++ " " ++ host.nullText ++ "\r\n",
                "CIMError:" ++ answer.statusCode.repr ++ ":" ++ cimError ++ "\r\n"] }
      | none =>
        sendResponse host arg s (state.withResponse answer.response true) answer.httpCode
          (getRequestEncoding host req) none
    else sendResponse host arg s state wsmanStatusForbidden (getRequestEncoding host req) none
  else if req.requestUri == anonIdentifyPath then
    match host.anonIdentifyFile.bind host.uBufLoad with
    | some id =>
      sendResponse host arg s (state.withResponse id state.eventing) wsmanStatusOk "UTF-8" none
    | none => notFound host arg s
  else notFound host arg s

def serverCallback (host : ListenerHost σ β) (req : HttpRequest) (conn : σ × ListenerConn β)
    (arg : ShttpdArg β) : (σ × ListenerConn β) × CallbackOut β :=
  let s := conn.1
  match conn.2, arg.connectionError with
  | .freed, _ => ((s, .freed), {})
  | .active _, true => ((s, .freed), {})
  | c, _ =>
    match req.contentLength with
    | none =>
      ((s, .freed),
        { written := printAll host arg.outLen ["HTTP/1.0 411 Length Required\n\n"]
          endOfOutput := true })
    | some text =>
      let state :=
        match c with
        | .active state => state
        | _ => { cl := strtoul text }
      if state.response.isSome then continueResponse arg s state {}
      else
        let request :=
          if 0 < state.nread then uBufAppend state.request arg.input
          else uBufSet state.request arg.input
        let state := { state with request := request, nread := state.nread + arg.input.length }
        if state.cl ≤ state.nread then serveRequest host req arg s state
        else ((s, .active state), {})

/-! ## Reading -/

def received (args : List (ShttpdArg β)) : List β := args.flatMap ShttpdArg.input

inductive HasReceived (cl : ℕ) : ListenerConn β → List β → Prop
  | fresh : HasReceived cl .fresh []
  | active (body : List β) :
    HasReceived cl (.active { cl := cl, nread := body.length, request := body }) body

theorem collect_eq_append (body chunk : List β) :
    (if 0 < body.length then uBufAppend body chunk else uBufSet body chunk) = body ++ chunk := by
  cases chunk with
  | nil => simp [uBufAppend, uBufSet]
  | cons b chunk =>
    split
    · rfl
    · next hempty =>
      obtain rfl : body = [] := length_eq_zero_iff.mp (Nat.eq_zero_of_not_pos hempty)
      rfl

section Calls

variable (host : ListenerHost σ β) {req : HttpRequest} {text : String}

variable {c : ListenerConn β} {body : List β} {arg : ShttpdArg β}

theorem serverCallback_of_hasReceived (hlength : req.contentLength = some text)
    (h : HasReceived (strtoul text) c body) (harg : arg.connectionError = false) (s : σ) :
    serverCallback host req (s, c) arg =
      if strtoul text ≤ (body ++ arg.input).length then
        serveRequest host req arg s
          { cl := strtoul text, nread := (body ++ arg.input).length, request := body ++ arg.input }
      else
        ((s, .active
          { cl := strtoul text, nread := (body ++ arg.input).length
            request := body ++ arg.input }),
          {}) := by
  have hcollect := collect_eq_append body arg.input
  have hlen : body.length + arg.input.length = (body ++ arg.input).length :=
    length_append.symm
  cases h with
  | fresh =>
    rw [serverCallback, harg, hlength]
    dsimp only [Option.isSome_none]
    rw [if_neg Bool.false_ne_true, ← hlen, ← hcollect]
    rfl
  | active body =>
    rw [serverCallback, harg, hlength]
    dsimp only [Option.isSome_none]
    rw [if_neg Bool.false_ne_true, hcollect, hlen]

/-- **As long as the body is not complete, nothing happens but that it is collected.** -/
theorem run_reading {args : List (ShttpdArg β)} (hlength : req.contentLength = some text)
    (hargs : ∀ a ∈ args, a.connectionError = false) (h : HasReceived (strtoul text) c body)
    (hless : args ≠ [] → (body ++ received args).length < strtoul text) (s : σ) :
    ∃ c', HasReceived (strtoul text) c' (body ++ received args) ∧
      run (serverCallback host req) (s, c) args = ((s, c'), args.map fun _ ↦ {}) := by
  induction args generalizing c body with
  | nil =>
    refine ⟨c, ?_, rfl⟩
    rw [received, flatMap_nil, append_nil]
    exact h
  | cons a args ih =>
    have hbody : body ++ received (a :: args) = body ++ a.input ++ received args := by
      rw [received, flatMap_cons, append_assoc]
      rfl
    have hless := hless (cons_ne_nil a args)
    rw [hbody] at hless ⊢
    have hmore : ¬strtoul text ≤ (body ++ a.input).length := by
      rw [length_append] at hless
      omega
    have hstep := serverCallback_of_hasReceived host hlength h (hargs a mem_cons_self) s
    rw [if_neg hmore] at hstep
    obtain ⟨c', hc', hrun⟩ := ih (fun b hb ↦ hargs b (mem_cons_of_mem a hb))
      (.active (body ++ a.input)) (fun _ ↦ hless)
    refine ⟨c', hc', ?_⟩
    rw [run_cons, hstep, hrun]
    rfl

/-! ## Sending -/

def unsent : ListenerConn β → Option (List β)
  | .active state => some ((state.response.getD []).drop state.index)
  | _ => none

inductive IsSending : ListenerConn β → Prop
  | active (state : ListenerState β) (response : List β) (there : state.response = some response)
      (len : state.len = response.length) (index : state.index ≤ state.len) :
      IsSending (.active state)
  | freed : IsSending .freed

def CallbackOut.piece (out : CallbackOut β) : List β × Bool := (out.body, out.endOfOutput)

theorem continueResponse_spec (arg : ShttpdArg β) {state : ListenerState β} {response : List β}
    (out : CallbackOut β) (hresponse : state.response = some response)
    (hlen : state.len = response.length) (hindex : state.index ≤ state.len)
    (hout : out.endOfOutput = false) (s : σ) :
    ∃ c out', continueResponse arg s state out = ((s, c), out') ∧ IsSending c ∧
      out'.dispatched = out.dispatched ∧
      Pieces.step (some (response.drop state.index)) (arg.outLen - out.written.length) =
        (unsent c, out'.piece) := by
  have hrest : (response.drop state.index).length = state.len - state.index := by
    rw [length_drop, hlen]
  rw [continueResponse, hresponse]
  dsimp only [Option.getD_some]
  split
  · next hroom =>
    refine ⟨_, _, rfl, .active _ response rfl hlen ?_, rfl, ?_⟩
    · dsimp only
      omega
    · rw [step_of_le (hrest ▸ hroom), unsent, drop_drop, CallbackOut.piece, hout]
      rfl
  · next hroom =>
    refine ⟨_, _, rfl, .freed, rfl, ?_⟩
    rw [step_of_lt (by omega), CallbackOut.piece, take_of_length_le hrest.le]
    rfl

theorem serverCallback_of_isSending (hlength : req.contentLength = some text) (h : IsSending c)
    (harg : arg.connectionError = false) (s : σ) :
    ∃ c' out, serverCallback host req (s, c) arg = ((s, c'), out) ∧ IsSending c' ∧
      out.dispatched = none ∧ Pieces.step (unsent c) arg.outLen = (unsent c', out.piece) := by
  cases h with
  | freed => exact ⟨.freed, {}, by rw [serverCallback], .freed, rfl, rfl⟩
  | active state response there len index =>
    obtain ⟨c', out', heq, hsending, hdispatched, hstep⟩ :=
      continueResponse_spec arg {} there len index rfl s
    refine ⟨c', out', ?_, hsending, hdispatched, ?_⟩
    · rw [serverCallback, harg, hlength]
      dsimp only
      rw [there, Option.isSome_some, if_pos rfl, heq]
    · rw [unsent, there]
      exact hstep

theorem run_sending {args : List (ShttpdArg β)} (hlength : req.contentLength = some text)
    (hargs : ∀ a ∈ args, a.connectionError = false) (h : IsSending c) (s : σ) :
    (run (serverCallback host req) (s, c) args).2.map CallbackOut.piece =
        (run Pieces.step (unsent c) (args.map ShttpdArg.outLen)).2 ∧
      (run (serverCallback host req) (s, c) args).2.filterMap CallbackOut.dispatched = [] := by
  induction args generalizing c with
  | nil => exact ⟨rfl, rfl⟩
  | cons a args ih =>
    obtain ⟨c', out, heq, hsending, hdispatched, hstep⟩ :=
      serverCallback_of_isSending host hlength h (hargs a mem_cons_self) s
    obtain ⟨hpieces, hnone⟩ := ih (fun b hb ↦ hargs b (mem_cons_of_mem a hb)) hsending
    rw [run_cons, heq, map_cons, map_cons, run_cons, hstep, hpieces,
      filterMap_cons_none hdispatched]
    exact ⟨rfl, hnone⟩

/-! ## The dispatch -/

theorem uBufSet_nil (data : List β) : uBufSet [] data = data := by
  rw [uBufSet]
  split
  · next hempty => exact (isEmpty_iff.mp hempty).symm
  · rfl

theorem printAll_eq {outLen : ℕ} {texts : List String}
    (h : (texts.flatMap host.bytes).length < outLen) :
    printAll host outLen texts = texts.flatMap host.bytes := by
  have hfold : ∀ (texts : List String) (written : List β),
      (written ++ texts.flatMap host.bytes).length < outLen →
      texts.foldl (shttpdPrintf host outLen) written = written ++ texts.flatMap host.bytes := by
    intro texts
    induction texts with
    | nil => intro written _; simp
    | cons text texts ih =>
      intro written hfit
      rw [flatMap_cons, ← append_assoc] at hfit ⊢
      have hlen := hfit
      rw [length_append, length_append] at hlen
      have hprint : shttpdPrintf host outLen written text = written ++ host.bytes text := by
        rw [shttpdPrintf, if_neg (by omega), if_pos (by omega)]
      rw [foldl_cons, hprint, ih _ hfit]
  exact hfold texts [] h

def headerBytes (req : HttpRequest) (status len : ℕ) : List β :=
  (responseHeaders host status (getRequestEncoding host req) false len).flatMap host.bytes

theorem serverCallback_dispatches (huri : req.requestUri = defaultServicePath)
    (hlength : req.contentLength = some text) (htype : checkRequestContentType req = wsmanStatusOk)
    (hfile : host.identifyFile = none) (h : HasReceived (strtoul text) c body)
    (harg : arg.connectionError = false) (hreached : strtoul text ≤ (body ++ arg.input).length)
    {s s' : σ} {status : ℕ} {response : List β}
    (hdispatch : host.dispatch s (inboundMessage host req (body ++ arg.input)) = (s', status,
      response)) (hresponse : response ≠ [])
    (hfit : (headerBytes host req status response.length).length < arg.outLen) :
    ∃ c' out, serverCallback host req (s, c) arg = ((s', c'), out) ∧ IsSending c' ∧
      out.dispatched = some (inboundMessage host req (body ++ arg.input)) ∧
      Pieces.step (some response)
          (arg.outLen - (headerBytes host req status response.length).length) =
        (unsent c', out.piece) := by
  have hsteal : (ListenerState.withResponse
      { cl := strtoul text, nread := (body ++ arg.input).length, request := body ++ arg.input }
      response false).response = some response := by
    rw [ListenerState.withResponse, uBufSteal, if_neg (by simpa using hresponse)]
  have hcall : callDispatcher host s (inboundMessage host req (body ++ arg.input)) =
      (s', status, response, some (inboundMessage host req (body ++ arg.input))) := by
    rw [callDispatcher, hdispatch, hfile]
  have hserve := serverCallback_of_hasReceived host hlength h harg s
  rw [if_pos hreached, serveRequest, huri, beq_self_eq_true, if_pos rfl,
    if_neg (by rw [htype]; simp), hcall] at hserve
  dsimp only [sendResponse] at hserve
  obtain ⟨c', out, heq, hsending, hdispatched, hstep⟩ := continueResponse_spec arg
    { written := printAll host arg.outLen (responseHeaders host status
        (getRequestEncoding host req) false response.length)
      dispatched := some (inboundMessage host req (body ++ arg.input)) }
    hsteal rfl (Nat.zero_le _) rfl s'
  refine ⟨c', out, hserve.trans heq, hsending, hdispatched, ?_⟩
  rw [printAll_eq host hfit] at hstep
  exact hstep

end Calls

/-- **The response is delivered.** For every request for the service with an accepted content type,
on a server without a file for Identify: let the calls be divided at the one in which the body is as
long as Content-Length says, let the dispatcher answer with a response that is not empty, and let
the header fit into the room of that call. Then the request is dispatched once, with all parts of
the body; what has been sent after any number of calls is the beginning of the response; the end is
signalled by the first call that has more room than there is left to send, and by then the whole
response has been sent. -/
theorem response_delivered (host : ListenerHost σ β) (req : HttpRequest)
    (before after : List (ShttpdArg β)) (call : ShttpdArg β) {text : String}
    (huri : req.requestUri = defaultServicePath) (hlength : req.contentLength = some text)
    (htype : checkRequestContentType req = wsmanStatusOk) (hfile : host.identifyFile = none)
    (hargs : ∀ a ∈ before ++ call :: after, a.connectionError = false)
    (hbefore : before ≠ [] → (received before).length < strtoul text)
    (hreached : strtoul text ≤ (received (before ++ [call])).length) {s s' : σ} {status : ℕ}
    {response : List β}
    (hdispatch : host.dispatch s (inboundMessage host req (received (before ++ [call]))) =
      (s', status, response)) (hresponse : response ≠ [])
    (hfit : (headerBytes host req status response.length).length < call.outLen) :
    let outs := (run (serverCallback host req) (s, .fresh) (before ++ call :: after)).2
    let pieces := outs.map CallbackOut.piece
    let rooms := before.map (fun _ ↦ 0) ++
      (call.outLen - (headerBytes host req status response.length).length) ::
        after.map ShttpdArg.outLen
    outs.filterMap CallbackOut.dispatched =
        [{ request := received (before ++ [call])
           msg := { charset := getRequestEncoding host req, authData := req.credentials } }] ∧
      (∀ n, sent (pieces.take n) <+: response) ∧
      (∀ n, EndsAt pieces n ↔
        IsLeast {m | response.length - (sent (pieces.take m)).length < rooms.getD m 0} n) ∧
      ∀ n, EndsAt pieces n → sent (pieces.take (n + 1)) = response := by
  intro outs pieces rooms
  have hbody : received (before ++ [call]) = received before ++ call.input := by
    rw [received, flatMap_append, flatMap_singleton]
    rfl
  have hcall := hargs call (by simp)
  obtain ⟨c, hreceived, hreading⟩ := run_reading host hlength
    (fun a ha ↦ hargs a (mem_append_left _ ha)) .fresh hbefore s
  rw [hbody] at hreached hdispatch
  obtain ⟨c', out, hdispatches, hsending, hdispatched, hstep⟩ :=
    serverCallback_dispatches host huri hlength htype hfile hreceived hcall hreached hdispatch
      hresponse hfit
  have hafter : ∀ a ∈ after, a.connectionError = false := fun a ha ↦ hargs a (by simp [ha])
  obtain ⟨hpieces, hnone⟩ := run_sending host hlength hafter hsending s'
  have houts : outs = before.map (fun _ ↦ ({ } : CallbackOut β)) ++
      out :: (run (serverCallback host req) (s', c') after).2 := by
    change (run (serverCallback host req) (s, .fresh) (before ++ call :: after)).2 = _
    rw [run_append, hreading, run_cons, hdispatches]
  have hrun : pieces = (run Pieces.step (some response) rooms).2 := by
    change outs.map CallbackOut.piece = _
    rw [houts, map_append, map_cons, hpieces, map_map, run_append, run_zeros, run_cons, hstep]
    rfl
  refine ⟨?_, ?_, ?_, ?_⟩
  · rw [houts, filterMap_append, filterMap_cons_some hdispatched, hnone,
      inboundMessage, uBufSet_nil, hbody]
    simp
  · intro n
    rw [hrun, sent_take]
    exact take_prefix _ _
  · intro n
    rw [hrun]
    exact endsAt_iff_isLeast response rooms n
  · intro n hend
    rw [hrun] at hend ⊢
    exact sent_of_endsAt hend

def doublingHost : ListenerHost ℕ ℕ where
  dispatch served msg := (served + 1, wsmanStatusOk, msg.request ++ msg.request)
  cimIndicationCall served _ _ _ :=
    (served, { httpCode := wsmanStatusOk, statusCode := 0, faultMsg := none, response := [] })
  wsmanCheckIdentify _ := false
  uBufLoad _ := none
  identifyFile := none
  anonIdentifyFile := none
  bytes _ := [0]
  zero := 0
  package := "Openwsman/2.8.1"
  nullText := "(null)"
  behindHeader := ""

def threeByteRequest : HttpRequest where
  contentLength := some (Nat.repr 3)
  contentType := none
  requestUri := defaultServicePath

/-- The body in two parts, and room for the response in three. The second room is filled exactly, so
the end comes with a call that sends nothing. -/
theorem response_delivered_in_pieces :
    let outs := (run (serverCallback doublingHost threeByteRequest) (0, .fresh)
      [⟨[1, 2], 0, false⟩, ⟨[3], 10, false⟩, ⟨[], 2, false⟩, ⟨[], 1, false⟩]).2
    outs.map CallbackOut.piece =
        [([], false), ([1, 2, 3, 1], false), ([2, 3], false), ([], true)] ∧
      outs.filterMap CallbackOut.dispatched =
        [{ request := [1, 2, 3], msg := { charset := "UTF-8", authData := {} } }] ∧
      sent (outs.map CallbackOut.piece) = [1, 2, 3, 1, 2, 3] := by
  intro outs
  have hlen : strtoul (Nat.repr 3) = 3 := strtoul_repr (by decide)
  have hpieces : outs.map CallbackOut.piece =
      [([], false), ([1, 2, 3, 1], false), ([2, 3], false), ([], true)] := by
    decide
  obtain ⟨hdispatched, -, -, hwhole⟩ := response_delivered doublingHost threeByteRequest
    [⟨[1, 2], 0, false⟩] [⟨[], 2, false⟩, ⟨[], 1, false⟩] ⟨[3], 10, false⟩ (s := 0) rfl rfl rfl rfl
    (by simp) (fun _ ↦ by rw [hlen]; decide) (by rw [hlen]; decide) rfl (by decide) (by decide)
  have hsent : sent ((outs.map CallbackOut.piece).take 4) = [1, 2, 3, 1, 2, 3] :=
    hwhole 3 (by rw [EndsAt]; exact congrArg (fun pieces ↦ (pieces.map Prod.snd)[3]?) hpieces)
  rw [hpieces] at hsent
  exact ⟨hpieces, hdispatched, by rw [hpieces]; exact hsent⟩

end Openwsman
