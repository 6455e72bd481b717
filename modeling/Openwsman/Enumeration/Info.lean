import Openwsman.Lib.KeyedTable
import Openwsman.Soap.Filter
import Openwsman.Soap.Message
import Openwsman.Xml.Duration

/-!
# Enumeration contexts

An Enumerate request leaves a `WsEnumerateInfo` in a table that all requests share. A Pull or a
Release locks the context it names by setting the `INWORK` flag, works on it without holding the
lock of the table, and then unlocks or removes it; the timeout manager removes contexts that nobody
works on. This module has the functions of `wsman-soap.c` that run under the lock of the table.

The source keeps the contexts in a hash table whose key is a copy of the `enumId` of the entry, so a
context is its own key here.

What a service plugin stores with a context (`enumResults` and `appEnumContext`) has the type `χ`,
and an item it delivers has the type `ι`.
-/

namespace Openwsman

open Option CResult KeyedTable

/-! ## Responses -/

inductive RespPart (ι : Type) where
  | context (id : Option String)
  | items (ns : String) (children : List ι)
  | endOfSequence (ns : String)

structure EnumResponse (ι : Type) where
  name : String
  parts : List (RespPart ι)

namespace EnumResponse

variable {ι : Type}

def items (r : EnumResponse ι) : List ι :=
  r.parts.flatMap fun
    | .items _ children => children
    | _ => []

def hasEndOfSequence (r : EnumResponse ι) : Bool :=
  r.parts.any fun
    | .endOfSequence _ => true
    | _ => false

def contextId (r : EnumResponse ι) : Option String :=
  r.parts.findSome? fun
    | .context id => id
    | _ => none

def hasItemsElement (r : EnumResponse ι) (ns : String) : Bool :=
  r.parts.any fun
    | .items ns' _ => ns' == ns
    | _ => false

def addChild (r : EnumResponse ι) (p : RespPart ι) : EnumResponse ι :=
  { r with parts := r.parts ++ [p] }

def addContextBeforeItems (r : EnumResponse ι) (ns id : String) : EnumResponse ι :=
  let isItems : RespPart ι → Bool := fun
    | .items ns' _ => ns' == ns
    | _ => false
  { r with
    parts := r.parts.takeWhile (fun p ↦ !isItems p) ++
      .context (some id) :: r.parts.dropWhile fun p ↦ !isItems p }

end EnumResponse

/-! ## Contexts -/

/-- The `WSMAN_ENUMINFO_*` bits that some function reads. They are pairwise different, so setting
and clearing one leaves the others alone. -/
structure EnumFlags where
  inWork : Bool := false
  polyNone : Bool := false
  polyInclude : Bool := false
  polyExclude : Bool := false
  opt : Bool := false
  epr : Bool := false
  objEpr : Bool := false
  assoc : Bool := false
  ref : Bool := false
  cql : Bool := false
  wql : Bool := false
  selector : Bool := false
  cimContextCleanup : Bool := false
  xpath : Bool := false
  deriving DecidableEq, Repr

structure WsEnumerateInfo (χ ι : Type) where
  flags : EnumFlags := {}
  enumId : String
  timeStamp : ℕ := 0
  expires : ℕ := 0
  totalItems : UInt32 := 0
  maxItems : UInt32 := 0
  maxsize : UInt32 := 0
  index : UInt32 := 0
  pullResultPtr : Option (SoapDoc (EnumResponse ι)) := none
  appEnumContext : Option χ := none
  authData : WsmanAuth := {}
  eprTo : String
  eprUri : String
  encoding : String
  filter : Option Filter := none

abbrev EnumTable (χ ι : Type) := Table (WsEnumerateInfo.enumId (χ := χ) (ι := ι))

namespace WsEnumerateInfo

variable {χ ι : Type}

def withInWork (info : WsEnumerateInfo χ ι) (b : Bool) : WsEnumerateInfo χ ι :=
  { info with flags := { info.flags with inWork := b } }

variable (info : WsEnumerateInfo χ ι) (b : Bool)

@[simp] theorem withInWork_enumId : (info.withInWork b).enumId = info.enumId := rfl

@[simp] theorem withInWork_inWork : (info.withInWork b).flags.inWork = b := rfl

@[simp] theorem withInWork_authData : (info.withInWork b).authData = info.authData := rfl

def stamped (info : WsEnumerateInfo χ ι) (now : ℕ) : WsEnumerateInfo χ ι :=
  { info with timeStamp := now }

variable (now : ℕ)

@[simp] theorem stamped_enumId : (info.stamped now).enumId = info.enumId := rfl

@[simp] theorem stamped_flags : (info.stamped now).flags = info.flags := rfl

@[simp] theorem stamped_authData : (info.stamped now).authData = info.authData := rfl

/-- Two versions of one context between which nothing was changed that the locking functions look
at. This is all that is asked of an endpoint. -/
def SameIdentity (info info' : WsEnumerateInfo χ ι) : Prop :=
  info'.enumId = info.enumId ∧ info'.flags.inWork = info.flags.inWork ∧
    info'.authData = info.authData ∧ info'.eprTo = info.eprTo ∧ info'.eprUri = info.eprUri

end WsEnumerateInfo

/-! ## Creating a context -/

section Create

variable {χ ι δ : Type} (datetime : String → Option ℤ)

def wsmanSetExpiretime (text : String) (now : ℕ) : Except WsmanFaultCodeType ℕ :=
  if text.toList.head? == some 'P' then
    match wsDeserializeDuration text with
    | none => .error .wsenInvalidExpirationTime
    | some timeout => .ok (toULong (now + timeout))
  else
    match datetime text with
    | none => .error .wsenUnsupportedExpirationType
    | some t => .ok (toULong t)

def requestTo (doc : WsXmlNode) : Option String :=
  wsXmlGetNodeText (wsXmlFirstChild (wsXmlGetSoapHeader doc) xmlNsAddressing wsaTo)

def requestUri (doc : WsXmlNode) : Option String :=
  wsXmlGetNodeText (wsXmlFirstChild (wsXmlGetSoapHeader doc) xmlNsWsMan wsmResourceUri)

/-- A password alone is dropped; for a user name alone the password is copied from `NULL`. -/
def storedAuth (auth : WsmanAuth) : CResult WsmanAuth :=
  match auth.username with
  | none => .value {}
  | some u => (uStrdup auth.password).bind fun p ↦ .value ⟨some u, some p⟩

def createEnumInfo (op : SoapOp δ) (id : String) (now : ℕ) :
    CResult (Except WsmanStatus (WsEnumerateInfo χ ι)) :=
  let enumnode := wsXmlFirstChild (wsXmlGetSoapBody op.inDoc) xmlNsEnumeration wsenumEnumerate
  -- `unsigned long` is stored in an `unsigned int`
  let opSize := UInt32.ofNat op.maxsize
  let maxsize :=
    if opSize == 0 then
      UInt32.ofNat (wsDeserializeUint32 enumnode 0 xmlNsEnumeration wsenumMaxCharacters)
    else opSize
  match requestTo op.inDoc, requestUri op.inDoc with
  | some dest, some uri =>
    let expires : Except WsmanFaultCodeType ℕ :=
      match wsXmlFirstChild enumnode xmlNsEnumeration wsenumExpires with
      | none => .ok 0
      | some node => wsmanSetExpiretime datetime node.chars now
    match expires with
    | .error code => .value (.error ⟨code, .wsmanDetailExpirationTime⟩)
    | .ok expires =>
      (storedAuth op.msg.authData).bind fun auth ↦
        .value (.ok
          { enumId := id, expires := expires, maxsize := maxsize, authData := auth, eprTo := dest
            eprUri := uri, encoding := op.msg.charset })
  | _, _ => .value (.error ⟨.wsmanInternalError, .wsmanDetailOk⟩)

variable {info : WsEnumerateInfo χ ι}

/-- A context is made only for a request with an address and a resource URI. All its fields are set
from the request, or are those of an empty context. -/
theorem createEnumInfo_eq_ok {op : SoapOp δ} {id : String} {now : ℕ}
    (h : createEnumInfo datetime op id now = .value (.ok info)) :
    ∃ dest uri auth expires maxsize, requestTo op.inDoc = some dest ∧
      requestUri op.inDoc = some uri ∧ storedAuth op.msg.authData = .value auth ∧
        info = { enumId := id, expires := expires, maxsize := maxsize, authData := auth
                 eprTo := dest, eprUri := uri, encoding := op.msg.charset } := by
  rw [createEnumInfo] at h
  dsimp only at h
  split at h
  · next dest uri hdest huri =>
    split at h
    · cases h
    · obtain ⟨auth, hauth, hinfo⟩ := bind_eq_value.mp h
      rw [value.injEq, Except.ok.injEq] at hinfo
      exact ⟨dest, uri, auth, _, _, hdest, huri, hauth, hinfo.symm⟩
  · cases h

theorem createEnumInfo_ok {op : SoapOp δ} {id : String} {now : ℕ}
    (h : createEnumInfo datetime op id now = .value (.ok info)) :
    info.enumId = id ∧ info.flags.inWork = false ∧
      storedAuth op.msg.authData = .value info.authData := by
  obtain ⟨dest, uri, auth, expires, maxsize, -, -, hauth, rfl⟩ := createEnumInfo_eq_ok datetime h
  exact ⟨rfl, rfl, hauth⟩

end Create

/-! ## The critical sections -/

section Sections

variable {χ ι : Type}

/-- The comparison of credentials in `wsman_verify_enum_info`: whether the request passes. The
password is looked at only when the user names differ, and neither when the request lacks one of
them. -/
def verifyAuth (stored auth : WsmanAuth) : CResult Bool :=
  match auth.username, auth.password with
  | some username, some password =>
    (strcmpEq username stored.username).bind fun sameUser ↦
      if sameUser then .value true else strcmpEq password stored.password
  | _, _ => .value true

def wsmanVerifyEnumInfo (info : WsEnumerateInfo χ ι) (doc : WsXmlNode) (auth : WsmanAuth) :
    CResult (Option WsmanStatus) :=
  match requestTo doc, requestUri doc with
  | some dest, some uri =>
    if info.eprTo != dest || info.eprUri != uri then
      .value (some ⟨.wsaMessageInformationHeaderRequired, .wsmanDetailOk⟩)
    else
      (verifyAuth info.authData auth).bind fun passes ↦
        .value (if passes then none else some ⟨.wsmanAccessDenied, .wsmanDetailOk⟩)
  | _, _ => .value (some ⟨.wsmanInternalError, .wsmanDetailOk⟩)

theorem wsmanVerifyEnumInfo_eq_none_iff (info : WsEnumerateInfo χ ι) (doc : WsXmlNode)
    (auth : WsmanAuth) :
    wsmanVerifyEnumInfo info doc auth = .value none ↔
      requestTo doc = some info.eprTo ∧ requestUri doc = some info.eprUri ∧
        verifyAuth info.authData auth = .value true := by
  rw [wsmanVerifyEnumInfo]
  cases hto : requestTo doc with
  | none => simp
  | some dest =>
    cases huri : requestUri doc with
    | none => simp
    | some uri =>
      by_cases hsame : info.eprTo = dest ∧ info.eprUri = uri
      · obtain ⟨rfl, rfl⟩ := hsame
        cases hauth : verifyAuth info.authData auth with
        | undefined => simp
        | value passes => cases passes <;> simp
      · have hne : (info.eprTo != dest || info.eprUri != uri) = true := by
          by_contra hcon
          exact hsame (by simpa using hcon)
        dsimp only
        rw [if_pos hne]
        simp only [value.injEq, reduceCtorEq, some.injEq, false_iff, not_and]
        rintro rfl rfl
        exact absurd ⟨rfl, rfl⟩ hsame

def requestedContext (doc : WsXmlNode) (action : String) : Option String :=
  wsXmlGetNodeText (wsXmlFirstChild (wsXmlFirstChild (wsXmlGetSoapBody doc) xmlNsEnumeration action)
    xmlNsEnumeration wsenumEnumerationContext)

def getLockedEnuminfo (enuminfos : EnumTable χ ι) (doc : WsXmlNode) (auth : WsmanAuth)
    (action : String) : CResult (Except WsmanStatus (EnumTable χ ι × WsEnumerateInfo χ ι)) :=
  match requestedContext doc action with
  | none => .value (.error ⟨.wsenInvalidEnumerationContext, .wsmanDetailOk⟩)
  | some enumId =>
    match enuminfos.lookup enumId with
    | none => .value (.error ⟨.wsenInvalidEnumerationContext, .wsmanDetailOk⟩)
    | some eInfo =>
      (wsmanVerifyEnumInfo eInfo doc auth).bind fun
        | some status => .value (.error status)
        | none =>
          if eInfo.flags.inWork then .value (.error ⟨.wsmanConcurrency, .wsmanDetailOk⟩)
          else .value (.ok (enuminfos.replace (eInfo.withInWork true), eInfo.withInWork true))

def unlockEnuminfo (enuminfos : EnumTable χ ι) (enumId : String) (now : ℕ) : EnumTable χ ι :=
  match enuminfos.lookup enumId with
  | none => enuminfos
  | some info =>
    if !info.flags.inWork then enuminfos
    else enuminfos.replace ((info.withInWork false).stamped now)

def removeLockedEnuminfo (enuminfos : EnumTable χ ι) (enumId : String) : EnumTable χ ι :=
  match enuminfos.lookup enumId with
  | none => enuminfos
  | some info => if !info.flags.inWork then enuminfos else enuminfos.erase enumId

def insertEnumInfo (enuminfos : EnumTable χ ι) (info : WsEnumerateInfo χ ι) (now : ℕ) :
    EnumTable χ ι :=
  enuminfos.insert (info.stamped now)

def isExpired (enumIdleTimeout now : ℕ) (info : WsEnumerateInfo χ ι) : Bool :=
  !info.flags.inWork &&
    !((info.timeStamp + enumIdleTimeout) % 2 ^ 64 > now &&
      (info.expires == 0 || info.expires > now))

def wsmanGetExpiredEnuminfos (enuminfos : EnumTable χ ι) (enumIdleTimeout now : ℕ) :
    List (WsEnumerateInfo χ ι) × EnumTable χ ι :=
  if enumIdleTimeout == 0 then ([], enuminfos)
  else
    (enuminfos.entries.filter (isExpired enumIdleTimeout now),
      enuminfos.filter fun info ↦ !isExpired enumIdleTimeout now info)

/-! ## What the sections do to the table -/

variable {t : EnumTable χ ι}

variable {info' : WsEnumerateInfo χ ι}

theorem getLockedEnuminfo_ok {t' : EnumTable χ ι} {doc : WsXmlNode} {auth : WsmanAuth}
    {action : String} (h : getLockedEnuminfo t doc auth action = .value (.ok (t', info'))) :
    ∃ id info, requestedContext doc action = some id ∧ t.lookup id = some info ∧
      wsmanVerifyEnumInfo info doc auth = .value none ∧ info.flags.inWork = false ∧
      info' = info.withInWork true ∧ t' = t.replace (info.withInWork true) := by
  rw [getLockedEnuminfo] at h
  cases hid : requestedContext doc action with
  | none => rw [hid] at h; exact absurd h (by simp)
  | some id =>
    rw [hid] at h
    dsimp only at h
    cases hinfo : t.lookup id with
    | none => rw [hinfo] at h; exact absurd h (by simp)
    | some info =>
      rw [hinfo] at h
      obtain ⟨verdict, hverify, hrest⟩ := bind_eq_value.mp h
      cases verdict with
      | some status => exact absurd hrest (by simp)
      | none =>
        dsimp only at hrest
        split at hrest
        · exact absurd hrest (by simp)
        · rename_i hfree
          rw [value.injEq, Except.ok.injEq, Prod.mk.injEq] at hrest
          exact ⟨id, info, rfl, hinfo, hverify, by simpa using hfree, hrest.2.symm, hrest.1.symm⟩

variable {id : String} {info : WsEnumerateInfo χ ι}

theorem lookup_replace_info (h : t.lookup id = some info) (hid : info'.enumId = info.enumId)
    (k : String) :
    (t.replace info').lookup k = if k = id then some info' else t.lookup k := by
  have hkey : info'.enumId = id := hid.trans (Table.key_of_lookup h)
  rw [Table.lookup_replace, hkey]
  by_cases hk : k = id
  · rw [if_pos hk, if_pos hk.symm, hk, h, map_some]
  · rw [if_neg hk, if_neg (Ne.symm hk)]

theorem lookup_unlockEnuminfo (h : t.lookup id = some info) (hwork : info.flags.inWork = true)
    (now : ℕ) (k : String) :
    (unlockEnuminfo t id now).lookup k =
      if k = id then some ((info.withInWork false).stamped now) else t.lookup k := by
  rw [unlockEnuminfo, h]
  dsimp only
  rw [hwork, if_neg (by simp)]
  exact lookup_replace_info h (by simp) k

theorem lookup_removeLockedEnuminfo (h : t.lookup id = some info) (hwork : info.flags.inWork = true)
    (k : String) : (removeLockedEnuminfo t id).lookup k = if k = id then none else t.lookup k := by
  rw [removeLockedEnuminfo, h]
  dsimp only
  rw [hwork, if_neg (by simp)]
  by_cases hk : k = id
  · rw [if_pos hk, hk, Table.lookup_erase_self]
  · rw [if_neg hk, Table.lookup_erase_of_ne (Ne.symm hk)]

theorem lookup_insertEnumInfo (h : t.lookup info.enumId = none) (now : ℕ) (k : String) :
    (insertEnumInfo t info now).lookup k =
      if k = info.enumId then some (info.stamped now) else t.lookup k := by
  rw [insertEnumInfo, Table.lookup_insert (by rw [WsEnumerateInfo.stamped_enumId]; exact h),
    WsEnumerateInfo.stamped_enumId]
  simp only [eq_comm]

theorem lookup_wsmanGetExpiredEnuminfos (t : EnumTable χ ι) (aeit now : ℕ) (k : String) :
    (wsmanGetExpiredEnuminfos t aeit now).2.lookup k = t.lookup k ∨
      ((wsmanGetExpiredEnuminfos t aeit now).2.lookup k = none ∧
        ∃ info, t.lookup k = some info ∧ info.flags.inWork = false) := by
  rw [wsmanGetExpiredEnuminfos]
  split
  · exact .inl rfl
  rw [Table.lookup_filter]
  cases hk : t.lookup k with
  | none => exact .inl rfl
  | some info =>
    by_cases hexp : isExpired aeit now info = true
    · refine .inr ⟨by simp [Option.filter, hexp], info, rfl, ?_⟩
      simpa using (Bool.and_eq_true_iff.mp hexp).1
    · exact .inl (by simp [Option.filter, hexp])

end Sections

end Openwsman
