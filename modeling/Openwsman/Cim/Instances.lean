import Openwsman.Cim.Arguments
import Openwsman.Cim.Endpoints
import Openwsman.Lib.Traced

/-!
# Operations on instances

The part of `sfcc-interface.c` that gets, creates, modifies and deletes instances and invokes
methods. What is sent to the CIMOM is a `CimCall`, and a function is a program that leaves the calls
as its trace (`Traced`). What the CIMOM answers is a parameter (`CimPeer`): any answer, which may
depend on all calls so far. A function that has no defined behaviour has no result.

The status is passed in and out as in the source. `cim_to_wsman_status` may set the code only and
leave the detail that was there, so a fault may have the detail of an earlier one.

A property of an instance has the text of its element as its value; the conversion to the type of
the property is not modelled here, nor is how an instance is written into the response.
-/

namespace Openwsman

variable {κ μ : Type}

/-! ## Data of the CIM client library -/

mutual

inductive CimPath where
  | mk (nameSpace : String) (className : Option String) (keys : List (String × CimKey))

/-- The value of a key: a reference, or anything else, with the text that `value2Chars` makes
of it. -/
inductive CimKey where
  | value (chars : Option String)
  | ref (path : CimPath)

end

namespace CimPath

def keys : CimPath → List (String × CimKey)
  | mk _ _ keys => keys

def setNameSpace (nameSpace : String) : CimPath → CimPath
  | mk _ className keys => mk nameSpace className keys

def addKey (name : String) (value : CimKey) : CimPath → CimPath
  | mk nameSpace className keys => mk nameSpace className (keys ++ [(name, value)])

def getKey (path : CimPath) (name : String) : Option CimKey :=
  (path.keys.find? fun k ↦ strcaseEq k.1 name).map Prod.snd

def ofObjectPath (path : ObjectPath) : CimPath :=
  mk path.nameSpace path.className (path.keys.map fun k ↦ (k.1, .value (some k.2)))

end CimPath

structure CimProperty where
  name : String
  hasValue : Bool
  keyQualifier : Option Bool
  deriving DecidableEq, Repr

structure CimClass where
  properties : List CimProperty
  deriving DecidableEq, Repr

structure CimInstance where
  path : CimPath
  properties : List (String × String) := []

def CimInstance.setProperty (inst : CimInstance) (name value : String) : CimInstance :=
  { inst with properties := inst.properties ++ [(name, value)] }

inductive CimCall where
  | getClass (path : CimPath)
  | enumInstanceNames (path : CimPath)
  | enumClassNames (path : CimPath)
  | getInstance (path : CimPath)
  | createInstance (path : CimPath) (inst : CimInstance)
  | setInstance (path : CimPath) (inst : CimInstance)
  | deleteInstance (path : CimPath)
  | invokeMethod (path : CimPath) (method : Option String) (args : List (String × CmpiArg))

/-- The CIMOM and the client library: whether the CIMOM can be reached with some credentials, and
its answers, each with a return code, to the last of the calls so far. `pathChars` is `value2Chars`
for a reference. -/
structure CimPeer (κ μ : Type) where
  connects : WsmanAuth → Bool
  getClass : List CimCall → Option CmpiError × Option CimClass
  enumInstanceNames : List CimCall → Option CmpiError × List CimPath
  enumClassNames : List CimCall → Option CmpiError × Option (List String)
  getInstance : List CimCall → Option CmpiError × Option κ
  createInstance : List CimCall → Option CmpiError × Option CimPath
  setInstance : List CimCall → Option CmpiError
  deleteInstance : List CimCall → Option CmpiError
  invokeMethod : List CimCall → Option CmpiError × μ
  pathChars : CimPath → Option String

abbrev CimProgram (α : Type) := Traced CimCall α

def CResult.traced {α : Type} : CResult α → CimProgram α
  | .undefined => Traced.ofOption none
  | .value a => Traced.ofOption (some a)

inductive CimBody (κ μ : Type) where
  | empty
  | instance (inst : κ) (fragstr : Option String)
  | created (path : CimPath)
  | output (method : Option String) (rc : Option CmpiError) (data : μ)
  | classNames (names : List String)
  | classDefinition (cls : CimClass)

def setCimStatus (rc : Option CmpiError) (status : WsmanStatus) : WsmanStatus :=
  match rc with
  | none => { status with faultCode := .wsmanRcOk }
  | some .invalidClass => cimToWsmanStatus .invalidClass
  | some .invalidParameter => cimToWsmanStatus .invalidParameter
  | some e => { status with faultCode := (cimToWsmanStatus e).faultCode }

def WsmanStatus.ok (status : WsmanStatus) : Bool := status.faultCode == .wsmanRcOk

/-! ## The client of a request -/

/-- `CimClientInfo` with what the operations on instances read besides: the table of selectors and
the arguments of a method, each of which may be `NULL`. -/
structure CimSession where
  client : CimClientInfo
  selectors : Option (List (String × KeyValue))
  methodArgs : Option (List MethodArg)

def requestArgs (doc : WsXmlNode) : CResult (Option (List MethodArg)) :=
  match requestUri doc with
  | none => .value none
  | some uri => wsmanGetMethodArgs doc uri

/-- What `CimResource_Init` reads from the request once it is connected. The selector for the
namespace is taken out of the table if it is a text. -/
def cimSession (cfg : CimConfig) (doc : WsXmlNode) : CResult CimSession :=
  (wsmanGetSelectorList doc).bind fun table ↦ (requestArgs doc).bind fun args ↦
    .value {
      client := cimClientOf cfg doc table
      selectors :=
        if table.isEmpty then none
        else some (table.filter fun e ↦ !(e.1 == cimNamespaceSelector && !e.2.isEpr))
      methodArgs := args }

def CimSession.classPath (session : CimSession) : CimPath :=
  .mk session.client.cimNamespace session.client.requestedClass []

/-! ## Selectors as keys -/

def cimNamespace : String := "root/cimv2"

def addSelectorKeys (path : CimPath) : List (String × KeyValue) → CResult CimPath
  | [] => .value path
  | (name, .text _ text) :: rest => addSelectorKeys (path.addKey name (.value (some text))) rest
  | (name, .epr _ epr) :: rest =>
    (cimEprToObjectpath cimNamespace epr).bind fun
      | none => addSelectorKeys path rest
      | some ref => addSelectorKeys (path.addKey name (.ref (.ofObjectPath ref))) rest

def CimSession.instancePath (session : CimSession) : CResult CimPath :=
  addSelectorKeys session.classPath (session.selectors.getD [])

/-- Without a table the number of selectors is taken from `NULL`. -/
def cimVerifyClassKeys (cls : CimClass) (keys : Option (List (String × KeyValue)))
    (status : WsmanStatus) : CResult WsmanStatus :=
  let count := (keys.getD []).length
  let ccount := (cls.properties.filter fun p ↦ p.keyQualifier == some true).length
  if ccount > count then
    .value ⟨.wsmanInvalidSelectors, .wsmanDetailInsufficientSelectors⟩
  else
    match keys with
    | none => .undefined
    | some _ =>
      if ccount < count then .value ⟨.wsmanInvalidSelectors, .wsmanDetailUnexpectedSelectors⟩
      else .value status

def CimPeer.value2Chars (peer : CimPeer κ μ) : CimKey → Option String
  | .value chars => chars
  | .ref path => peer.pathChars path

def cimOpcmp (peer : CimPeer κ μ) (op1 : CimPath) : List (String × CimKey) → CResult Bool
  | [] => .value true
  | (name, value1) :: rest =>
    match op1.getKey name with
    | none => .value false
    | some value2 =>
      match peer.value2Chars value1, peer.value2Chars value2 with
      | some cv1, some cv2 => if cv1 == cv2 then cimOpcmp peer op1 rest else .value false
      | _, _ => .undefined

/-- The comparison of a key with a selector in `cim_verify_keys`. `cv` says that the text of another
key has been compared and freed before: the branch for references frees it once more. -/
def keyEquals (peer : CimPeer κ μ) (cv : Bool) (data : CimKey) : KeyValue → CResult Bool
  | .text _ text => .value (peer.value2Chars data == some text)
  | .epr _ epr =>
    (cimEprToObjectpath cimNamespace epr).bind fun
      | none => .undefined
      | some ref =>
        match data with
        | .value _ => .undefined
        | .ref other =>
          (cimOpcmp peer other (CimPath.ofObjectPath ref).keys).bind fun equal ↦
            if cv then .undefined else .value equal

def verifyKeyLoop (peer : CimPeer κ μ) (path : CimPath) :
    Bool → List (String × KeyValue) → WsmanStatus → CResult WsmanStatus
  | _, [], status => .value status
  | cv, (name, kv) :: rest, _ =>
    match path.getKey name with
    | none => .value ⟨.wsmanInvalidSelectors, .wsmanDetailUnexpectedSelectors⟩
    | some data =>
      (keyEquals peer cv data kv).bind fun equal ↦
        if equal then verifyKeyLoop peer path (cv || !kv.isEpr) rest {}
        else .value ⟨.wsaDestinationUnreachable, .wsmanDetailInvalidResourceuri⟩

def cimVerifyKeys (peer : CimPeer κ μ) (path : CimPath) (keys : Option (List (String × KeyValue)))
    (status : WsmanStatus) : CResult WsmanStatus :=
  let count := (keys.getD []).length
  if path.keys.length > count then
    .value ⟨.wsmanInvalidSelectors, .wsmanDetailInsufficientSelectors⟩
  else
    match keys with
    | none => .undefined
    | some keys =>
      if path.keys.length < count then .value { status with faultCode := .wsmanInvalidSelectors }
      else verifyKeyLoop peer path false keys status

/-! ## Finding the instance -/

def matchingPath (peer : CimPeer κ μ) (session : CimSession) :
    List CimPath → WsmanStatus → CResult (Option CimPath × WsmanStatus)
  | [], status => .value (none, status)
  | path :: paths, status =>
    (cimVerifyKeys peer path session.selectors status).bind fun status ↦
      if status.ok then .value (some (path.setNameSpace session.client.cimNamespace), status)
      else matchingPath peer session paths status

def cimGetOpFromEnum (peer : CimPeer κ μ) (session : CimSession) (status : WsmanStatus) :
    CimProgram (Option CimPath × WsmanStatus) := do
  let (rc, paths) ← Traced.act (.enumInstanceNames session.classPath) peer.enumInstanceNames
  if rc.isSome then
    return (none, setCimStatus rc status)
  else if paths.isEmpty then
    return (none, ⟨.wsaDestinationUnreachable, .wsmanDetailInvalidResourceuri⟩)
  else
    (matchingPath peer session paths status).traced

def cimGetClass (peer : CimPeer κ μ) (session : CimSession) (status : WsmanStatus) :
    CimProgram (Option CimClass × WsmanStatus) := do
  let (rc, cls) ← Traced.act (.getClass session.classPath) peer.getClass
  return (cls, setCimStatus rc status)

/-! ## Get and Delete -/

def cimGetInstanceFromEnum (peer : CimPeer κ μ) (session : CimSession) (fragstr : Option String)
    (status : WsmanStatus) : CimProgram (CimBody κ μ × WsmanStatus) := do
  match ← cimGetOpFromEnum peer session status with
  | (none, status) => return (.empty, status)
  | (some path, _) =>
    let (rc, inst) ← Traced.act (.getInstance path) peer.getInstance
    match rc, inst with
    | some e, _ => return (.empty, setCimStatus (some e) {})
    | none, none => return (.empty, {})
    | none, some inst => return (.instance inst fragstr, {})

def cimGetInstance (peer : CimPeer κ μ) (session : CimSession) (fragstr : Option String)
    (status : WsmanStatus) : CimProgram (CimBody κ μ × WsmanStatus) := do
  match ← cimGetClass peer session status with
  | (none, status) => return (.empty, status)
  | (some cls, status) =>
    let status ← (cimVerifyClassKeys cls session.selectors status).traced
    if status.ok then
      let path ← session.instancePath.traced
      let (rc, inst) ← Traced.act (.getInstance path) peer.getInstance
      match inst with
      | none => return (.empty, setCimStatus rc status)
      | some inst => return (.instance inst fragstr, setCimStatus rc status)
    else
      return (.empty, status)

def cimDeleteInstanceFromEnum (peer : CimPeer κ μ) (session : CimSession) (status : WsmanStatus) :
    CimProgram WsmanStatus := do
  match ← cimGetOpFromEnum peer session status with
  | (none, status) => return status
  | (some path, _) =>
    let rc ← Traced.act (.deleteInstance path) peer.deleteInstance
    return if rc.isSome then setCimStatus rc {} else {}

def cimDeleteInstance (peer : CimPeer κ μ) (session : CimSession) (status : WsmanStatus) :
    CimProgram WsmanStatus := do
  match ← cimGetClass peer session status with
  | (none, status) => return status
  | (some cls, status) =>
    let status ← (cimVerifyClassKeys cls session.selectors status).traced
    if status.ok then
      let path ← session.instancePath.traced
      let rc ← Traced.act (.deleteInstance path) peer.deleteInstance
      return setCimStatus rc status
    else
      return status

/-! ## Fragments -/

def textBefore (t : List Char) : List Char → Option (List Char)
  | [] => if t.isEmpty then some [] else none
  | c :: cs => if t.isPrefixOf (c :: cs) then some [] else (textBefore t cs).map (c :: ·)

/-- What a fragment is about: an element with its name, its text alone, or one of several. -/
inductive FragmentKind where
  | element | text | indexed
  deriving DecidableEq, Repr

def wsmanGetFragmentType (fragstr : String) : FragmentKind × String :=
  match textBefore "/text()".toList fragstr.toList with
  | some element => (.text, String.ofList element)
  | none =>
    match textBefore ['['] fragstr.toList, textBefore [']'] fragstr.toList with
    | some element, some _ => (.indexed, String.ofList element)
    | _, _ => (.element, fragstr)

/-! ## Instances from XML -/

def isNil (child : WsXmlNode) : Bool :=
  wsXmlFindAttrValue (some child) (some xmlNsSchemaInstance) "nil" == some "true"

def setProperties (resource : WsXmlNode) (resourceUri : Option String) :
    List CimProperty → CimInstance → WsmanStatus → CimInstance × WsmanStatus
  | [], inst, status => (inst, status)
  | p :: ps, inst, status =>
    match wsXmlGetChild (some resource) 0 resourceUri (some p.name) with
    | some child =>
      if isNil child then setProperties resource resourceUri ps inst status
      else setProperties resource resourceUri ps (inst.setProperty p.name child.chars) status
    | none =>
      if p.hasValue then (inst, ⟨.wxfInvalidRepresentation, .wsmanDetailMissingValues⟩)
      else setProperties resource resourceUri ps inst status

def createInstanceFromXml (inst : CimInstance) (cls : CimClass) (resource : WsXmlNode)
    (fragstr : Option String) (resourceUri : Option String) (status : WsmanStatus) :
    CimInstance × WsmanStatus :=
  match fragstr.map wsmanGetFragmentType with
  | none => setProperties resource resourceUri cls.properties inst status
  | some (kind, element) =>
    let unexpected : WsmanStatus := ⟨.wsmanInvalidSelectors, .wsmanDetailUnexpectedSelectors⟩
    if cls.properties.any fun p ↦ p.name == element then
      match kind with
      | .element =>
        match wsXmlGetChild (some resource) 0 none (some element) with
        | none => (inst, unexpected)
        | some child => (inst.setProperty element child.chars, status)
      | _ => (inst.setProperty element resource.chars, status)
    else (inst, unexpected)

/-! ## Put -/

def putResource (session : CimSession) (inBody : Option WsXmlNode) (fragstr : Option String) :
    Option WsXmlNode :=
  match fragstr with
  | none => wsXmlGetChild inBody 0 session.client.resourceUri session.client.requestedClass
  | some _ => wsXmlFirstChild inBody xmlNsWsMan wsmXmlFragment

def putInstanceFromXml (session : CimSession) (path : CimPath) (cls : Option CimClass)
    (resource : WsXmlNode) (fragstr : Option String) (status : WsmanStatus) :
    CimInstance × WsmanStatus :=
  match cls with
  | none => ({ path := path }, status)
  | some cls =>
    createInstanceFromXml { path := path } cls resource fragstr session.client.resourceUri status

/-- It is not checked whether the CIMOM has returned the current instance. -/
def cimPutInstance (peer : CimPeer κ μ) (session : CimSession) (inBody : Option WsXmlNode)
    (fragstr : Option String) (status : WsmanStatus) : CimProgram (CimBody κ μ × WsmanStatus) :=
  match putResource session inBody fragstr with
  | none => return (.empty, ⟨.wxfInvalidRepresentation, .wsmanDetailInvalidNamespace⟩)
  | some resource => do
    let path ← session.instancePath.traced
    let (cls, status) ← cimGetClass peer session status
    let (inst, status) := putInstanceFromXml session path cls resource fragstr status
    if status.ok then
      let rc ← Traced.act (.setInstance path inst) peer.setInstance
      if rc.isSome then
        return (.empty, setCimStatus rc status)
      else
        let (_, inst) ← Traced.act (.getInstance path) peer.getInstance
        let inst ← Traced.ofOption inst
        return (.instance inst fragstr, setCimStatus none status)
    else
      return (.empty, status)

/-! ## Create -/

def createNs (session : CimSession) (inBody : Option WsXmlNode) : Option String :=
  let uri := session.client.resourceUri
  if (wsXmlGetChild inBody 0 uri session.client.requestedClass).isSome then uri
  else some (uri.getD "(null)" ++ ".xsd")

/-- A key in a fragment that has no element for it is read from `NULL`. -/
def createKeys (resource : WsXmlNode) (ns : Option String)
    (fragment : Option (FragmentKind × String)) :
    List CimProperty → CimPath → WsmanStatus → CResult (CimPath × WsmanStatus × Bool)
  | [], path, status => .value (path, status, true)
  | p :: ps, path, status =>
    if p.keyQualifier.isNone then createKeys resource ns fragment ps path status
    else
      match fragment with
      | none =>
        match wsXmlGetChild (some resource) 0 ns (some p.name) with
        | none => .value (path, ⟨.wxfInvalidRepresentation, .wsmanDetailMissingValues⟩, false)
        | some child =>
          createKeys resource ns fragment ps (path.addKey p.name (.value (some child.chars))) status
      | some (kind, element) =>
        if element != p.name then createKeys resource ns fragment ps path status
        else if kind == .text then .undefined
        else
          match wsXmlGetChild (some resource) 0 none (some element) with
          | none => .undefined
          | some child => .value (path.addKey p.name (.value (some child.chars)), status, false)

def cimCreateInstance (peer : CimPeer κ μ) (session : CimSession) (inBody : Option WsXmlNode)
    (fragstr : Option String) (status : WsmanStatus) : CimProgram (CimBody κ μ × WsmanStatus) := do
  let (cls, status) ← cimGetClass peer session status
  let ns := createNs session inBody
  let resource :=
    if fragstr.isNone then wsXmlGetChild inBody 0 ns session.client.requestedClass
    else wsXmlFirstChild inBody xmlNsWsMan wsmXmlFragment
  match cls, resource with
  | none, _ => return (.empty, ⟨.wsaEndpointUnavailable, .owsmanDetailEndpointError⟩)
  | some _, none => return (.empty, ⟨.wxfInvalidRepresentation, .wsmanDetailInvalidNamespace⟩)
  | some cls, some resource =>
    let (path, status, finished) ← (createKeys resource ns (fragstr.map wsmanGetFragmentType)
      cls.properties session.classPath status).traced
    if fragstr.isSome && finished then
      return (.empty, ⟨.wsmanInvalidSelectors, .wsmanDetailUnexpectedSelectors⟩)
    else
      let (inst, status) := createInstanceFromXml { path := path } cls resource fragstr
        session.client.resourceUri status
      if status.ok then
        let (rc, created) ← Traced.act (.createInstance path inst) peer.createInstance
        let status :=
          match rc with
          | some (.failed _) => { status with faultCode := .wsaActionNotSupported }
          | rc => setCimStatus rc status
        match created with
        | none => return (.empty, status)
        | some created => return (.created created, status)
      else
        return (.empty, status)

/-! ## Methods -/

def invokeIntrinsic (peer : CimPeer κ μ) (session : CimSession) :
    CimProgram (CimBody κ μ × WsmanStatus) := do
  let enumerates ← (strcmpEq "EnumerateClassNames" session.client.method).traced
  let gets ← (strcmpEq "GetClass" session.client.method).traced
  if enumerates then
    let (rc, names) ← Traced.act (.enumClassNames (.mk session.client.cimNamespace (some "") []))
      peer.enumClassNames
    match names with
    | none => return (.empty, setCimStatus rc {})
    | some names => return (.classNames names, setCimStatus rc {})
  else if gets then
    let (rc, cls) ← Traced.act (.getClass session.classPath) peer.getClass
    match cls with
    | none => return (.empty, setCimStatus rc {})
    | some cls => return (.classDefinition cls, setCimStatus rc {})
  else
    return (.empty, {})

def methodPath (peer : CimPeer κ μ) (session : CimSession) (status : WsmanStatus) :
    CimProgram (Option CimPath × WsmanStatus) :=
  if strstr (session.client.resourceUri.getD "") xmlNsCimClass then
    cimGetOpFromEnum peer session status
  else do
    let path ← session.instancePath.traced
    return (some path, status)

def methodArguments (session : CimSession) : CResult (Option (List (String × CmpiArg))) :=
  match session.methodArgs with
  | none => .value (some [])
  | some args => cimAddArgs session.client args

def cimInvokeMethod (peer : CimPeer κ μ) (session : CimSession) (status : WsmanStatus) :
    CimProgram (CimBody κ μ × WsmanStatus) := do
  match ← methodPath peer session status with
  | (none, status) => return (.empty, status)
  | (some path, _) =>
    match ← (methodArguments session).traced with
    | none => return (.empty, ⟨.wsmanInvalidParameter, .wsmanDetailInvalidValue⟩)
    | some args =>
      if strstr (session.client.resourceUri.getD "") xmlNsCimIntrinsic then
        invokeIntrinsic peer session
      else
        let (rc, data) ← Traced.act (.invokeMethod path session.client.method args)
          peer.invokeMethod
        return (.output session.client.method rc data, setCimStatus rc {})

end Openwsman
