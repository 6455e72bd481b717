import Openwsman.Dispatcher.Answer

/-!
# The limit for the length of a response

A request states with `wsman:MaxEnvelopeSize` how long the response may be, and without the header
32767 bytes are meant. The limit is read by the inbound checks, compared by an outbound filter, and
the fragment header is added to the response behind that filter. So the limit is kept for all
responses that a service can leave only if it was read as it was stated and nothing is added later.

What is stated is the number at the beginning of the text, without the conversions to machine
integers. The length of a document is an `int`; this and that documents can have any length below
its maximum is what is assumed of the XML library (`Libxml2.Lengths`).
-/

namespace Openwsman

open Wire WsXmlNode Option List

variable {ρ σ : Type}

/-! ## The number in a text -/

def leadingInt (text : String) : ℤ :=
  let s := readSign (text.toList.dropWhile isSpace)
  let v : ℤ := digitsValue (s.2.takeWhile isDigit)
  if s.1 then -v else v

theorem atoi_eq (text : String) : atoi text = toCInt (clampLong (leadingInt text)) := by
  rw [atoi, strtol, leadingInt]
  by_cases hds : ((readSign (text.toList.dropWhile isSpace)).2.takeWhile isDigit).isEmpty = true
  · have hnil := isEmpty_iff.mp hds
    simp only [hnil, isEmpty_nil, if_true]
    have hzero : ((digitsValue [] : ℕ) : ℤ) = 0 := rfl
    rw [hzero, neg_zero, ite_self]
    decide
  · simp only [hds]
    rfl

variable {text : String}

theorem toULong_atoi_of_nonneg (h0 : 0 ≤ leadingInt text) (hmax : leadingInt text ≤ intMax) :
    (toULong (atoi text) : ℤ) = leadingInt text := by
  have hmax' : leadingInt text ≤ 2147483647 := hmax
  have hlong : clampLong (leadingInt text) = leadingInt text := by
    rw [clampLong]
    omega
  have hint : toCInt (leadingInt text) = leadingInt text := toCInt_of_mem (by omega) (by omega)
  rw [atoi_eq, hlong, hint, toULong]
  omega

/-- Whatever the number was, its low half is at least the smallest limit if all of it is. -/
theorem minimal_le_toUInt (h : wsmanMinimalEnvelopeSizeRequest ≤ toULong (atoi text)) :
    wsmanMinimalEnvelopeSizeRequest ≤ toUInt (toULong (atoi text)) := by
  have hlow : -2147483648 ≤ atoi text := by
    rw [atoi_eq]
    exact le_toCInt _
  have hhigh : atoi text < 2147483648 := by
    rw [atoi_eq]
    exact toCInt_lt _
  rw [wsmanMinimalEnvelopeSizeRequest] at h ⊢
  rw [toULong] at h
  rw [toUInt, toULong]
  omega

/-! ## What is assumed of the XML library -/

def idHeaders : List WsXmlNode :=
  [.elem xmlNsAddressing wsaMessageId [], .elem xmlNsAddressing wsaRelatesTo []]

def Libxml2.envelopeLength (lx : Libxml2) (charset : String) (header body : List WsXmlNode) : ℕ :=
  (lx.dumpMemoryEnc charset ⟨wsXmlCreateEnvelope header body, some xmlNsSoap12⟩).length

structure Libxml2.Lengths (lx : Libxml2) (charset : String) : Prop where
  le_intMax : ∀ doc, (lx.dumpMemoryEnc charset doc).length ≤ intMax
  small : lx.envelopeLength charset idHeaders [] < wsmanMinimalEnvelopeSizeRequest
  fill : ∀ n, lx.envelopeLength charset idHeaders [] < n → n ≤ intMax →
    ∃ text, lx.envelopeLength charset idHeaders [.text text] = n
  grows : ∀ header more body,
    lx.envelopeLength charset header body < lx.envelopeLength charset (header ++ [more]) body ∨
      lx.envelopeLength charset (header ++ [more]) body = intMax

/-! ## What a request states -/

def maxEnvelopeSizeOf (doc : WsXmlNode) : Option WsXmlNode :=
  wsXmlFirstChild (headerOf doc) xmlNsWsMan wsmMaxEnvelopeSize

def statedLimit (doc : WsXmlNode) : ℤ :=
  match maxEnvelopeSizeOf doc with
  | none => wsmanMaxEnvelopeSize
  | some node => leadingInt node.chars

def fragmentOf (doc : WsXmlNode) : Option WsXmlNode :=
  wsXmlFirstChild (wsXmlGetSoapHeader doc) xmlNsWsMan wsmFragmentTransfer

def limitMustBeUnderstood (node : WsXmlNode) : Bool :=
  wsXmlFindAttrValue (some node) (some xmlNsSoap12) soapMustUnderstand == some "true"

/-- The limit is read as it is stated and nothing is added behind its check, or it is so large that
no document reaches it. -/
def limitKept (doc : WsXmlNode) : Bool :=
  match maxEnvelopeSizeOf doc with
  | none => (fragmentOf doc).isNone
  | some node =>
    decide ((intMax : ℤ) ≤ leadingInt node.chars) ||
      (limitMustBeUnderstood node && decide (0 ≤ leadingInt node.chars) && (fragmentOf doc).isNone)

def WithinLimit (srv : SoapServer ρ σ) (msg : WsmanMessage) (request : List UInt8)
    (call : Call ρ σ) : Prop :=
  ∀ doc, srv.lx.readMemory msg.charset request = some doc →
    ∀ d, call.sent = some d → wsmanIsFaultEnvelope d = false →
      ((srv.lx.dumpMemoryEnc msg.charset d).length : ℤ) ≤ statedLimit doc

/-! ## The limit of an operation -/

section

variable {ids : List String} {doc : WsXmlNode} {msg : WsmanMessage}

theorem operationOf_maxsize_of_none (hadm : Admitted ids doc) (h : maxEnvelopeSizeOf doc = none) :
    (operationOf ids doc msg).maxsize = wsmanMaxEnvelopeSize := by
  have hsize := (operationOf_spec hadm msg).2.2.1
  rw [maxEnvelopeSizeOf] at h
  rw [controlMaxsize, h] at hsize
  exact (some.inj hsize).symm

theorem operationOf_maxsize_of_some {node : WsXmlNode} (hadm : Admitted ids doc)
    (h : maxEnvelopeSizeOf doc = some node) (msg : WsmanMessage) :
    (limitMustBeUnderstood node = true ∧
        (operationOf ids doc msg).maxsize = toULong (atoi node.chars) ∧
        wsmanMinimalEnvelopeSizeRequest ≤ toULong (atoi node.chars)) ∨
      (limitMustBeUnderstood node = false ∧ (operationOf ids doc msg).maxsize = 0) := by
  have hsize := (operationOf_spec hadm msg).2.2.1
  rw [maxEnvelopeSizeOf] at h
  have hread : wsDeserializeUint32 (headerOf doc) 0 xmlNsWsMan wsmMaxEnvelopeSize =
      toULong (atoi node.chars) := by
    rw [wsXmlFirstChild] at h
    rw [wsDeserializeUint32, h]
    rfl
  rw [controlMaxsize, h] at hsize
  dsimp only at hsize
  rw [hread, ← limitMustBeUnderstood] at hsize
  cases hmu : limitMustBeUnderstood node with
  | false =>
    rw [hmu, if_neg Bool.false_ne_true] at hsize
    exact .inr ⟨rfl, (some.inj hsize).symm⟩
  | true =>
    rw [hmu, if_pos rfl] at hsize
    split at hsize
    · cases hsize
    · next hlt => exact .inl ⟨rfl, (some.inj hsize).symm, not_lt.mp hlt⟩

end

variable {srv : SoapServer ρ σ}

theorem tooLongFor_eq_false_iff {msg : WsmanMessage} (hlx : srv.lx.Lengths msg.charset)
    (ids : List String) (doc : WsXmlNode) (out : WsXmlDoc) :
    tooLongFor srv ids msg doc out = false ↔
      toUInt (operationOf ids doc msg).maxsize = 0 ∨
        (srv.lx.dumpMemoryEnc msg.charset
          (Wire.outboundAddressingFilter srv.uuid doc out)).length ≤
            toUInt (operationOf ids doc msg).maxsize := by
  have hint := hlx.le_intMax (Wire.outboundAddressingFilter srv.uuid doc out)
  rw [tooLongFor, Wire.checkEnvelopeSize]
  generalize (srv.lx.dumpMemoryEnc msg.charset
    (Wire.outboundAddressingFilter srv.uuid doc out)).length = n at hint ⊢
  have hn : toUInt n = n := by
    rw [intMax] at hint
    rw [toUInt]
    omega
  rw [hn, Bool.and_eq_false_iff, decide_eq_false_iff_not, not_lt, bne_eq_false_iff_eq]

theorem toUInt_toULong_atoi (h0 : 0 ≤ leadingInt text) (hmax : leadingInt text ≤ intMax) :
    (toUInt (toULong (atoi text)) : ℤ) = leadingInt text := by
  have hlong := toULong_atoi_of_nonneg h0 hmax
  rw [intMax] at hmax
  rw [toUInt]
  omega

/-! ## The limit is kept -/

theorem length_delivery_le {msg : WsmanMessage} (hlx : srv.lx.Lengths msg.charset)
    {ids : List String} {doc : WsXmlNode} (hadm : Admitted ids doc) (hkept : limitKept doc = true)
    {out : WsXmlDoc} (hshort : tooLongFor srv ids msg doc out = false)
    (hout : wsmanIsFaultEnvelope out = false) :
    ((srv.lx.dumpMemoryEnc msg.charset (delivery srv doc out)).length : ℤ) ≤ statedLimit doc := by
  have hint := hlx.le_intMax (delivery srv doc out)
  -- without a fragment header the check has seen the document that is sent
  have hsame : fragmentOf doc = none →
      delivery srv doc out = Wire.outboundAddressingFilter srv.uuid doc out := by
    intro hfrag
    rw [fragmentOf] at hfrag
    rw [delivery, wsmanIsFaultEnvelope_addressing, hout, if_neg Bool.false_ne_true,
      Wire.wsmanAddFragementForHeader, hfrag, toList_none, map_nil, addSoapHeaders_nil]
  rw [tooLongFor_eq_false_iff hlx] at hshort
  rw [statedLimit]
  rw [limitKept] at hkept
  cases hnode : maxEnvelopeSizeOf doc with
  | none =>
    rw [hnode, isNone_iff_eq_none] at hkept
    rw [operationOf_maxsize_of_none hadm hnode, ← hsame hkept] at hshort
    have hlimit : toUInt wsmanMaxEnvelopeSize = wsmanMaxEnvelopeSize := by decide
    rw [hlimit] at hshort
    rcases hshort with hzero | hle
    · exact absurd hzero (by decide)
    · exact Int.ofNat_le.mpr hle
  | some node =>
    rw [hnode] at hkept
    dsimp only at hkept ⊢
    by_cases hmax : (intMax : ℤ) ≤ leadingInt node.chars
    · have : ((srv.lx.dumpMemoryEnc msg.charset (delivery srv doc out)).length : ℤ) ≤ intMax := by
        exact_mod_cast hint
      omega
    · rw [decide_eq_false hmax, Bool.false_or, Bool.and_eq_true, Bool.and_eq_true,
        decide_eq_true_eq, isNone_iff_eq_none] at hkept
      obtain ⟨⟨hmu, h0⟩, hfrag⟩ := hkept
      rcases operationOf_maxsize_of_some hadm hnode msg with
        ⟨-, hsize, hmin⟩ | ⟨hmu', -⟩
      · have hlimit := toUInt_toULong_atoi h0 (by omega)
        have hlow := minimal_le_toUInt hmin
        rw [hsize, ← hsame hfrag] at hshort
        rw [wsmanMinimalEnvelopeSizeRequest] at hlow
        omega
      · rw [hmu] at hmu'
        cases hmu'

/-! ## The limit is not kept -/

def filledDoc (text : String) : WsXmlDoc :=
  ⟨wsXmlCreateEnvelope idHeaders [.text text], some xmlNsSoap12⟩

theorem outboundAddressingFilter_filledDoc (uuid : String) (doc : WsXmlNode) (text : String) :
    Wire.outboundAddressingFilter uuid doc (filledDoc text) = filledDoc text := by
  have hheaders : addressingHeaders uuid doc (filledDoc text) = [] := by
    have hmessageId : (wsXmlFirstChild (some (.elem xmlNsSoap12 soapHeader idHeaders))
        xmlNsAddressing wsaMessageId).isNone = false := rfl
    have hrelatesTo : (wsXmlFirstChild (some (.elem xmlNsSoap12 soapHeader idHeaders))
        xmlNsAddressing wsaRelatesTo).isSome = true := rfl
    have hheader : wsmanGetSoapHeaderElement (filledDoc text).root none none =
        some (.elem xmlNsSoap12 soapHeader idHeaders) := rfl
    rw [addressingHeaders, hheader]
    dsimp only
    rw [hmessageId, hrelatesTo, Bool.false_and, if_neg Bool.false_ne_true, nil_append]
    split <;> rfl
  rw [Wire.outboundAddressingFilter, hheaders, addSoapHeaders_nil]

theorem length_delivery_filledDoc {charset : String} (hlx : srv.lx.Lengths charset)
    (doc : WsXmlNode) (text : String) :
    let n := srv.lx.envelopeLength charset idHeaders [.text text]
    let sent := (srv.lx.dumpMemoryEnc charset (delivery srv doc (filledDoc text))).length
    n ≤ sent ∧ ((fragmentOf doc).isSome = true → n < sent ∨ sent = intMax) := by
  have hdelivery : delivery srv doc (filledDoc text) =
      ⟨wsXmlCreateEnvelope (idHeaders ++ (fragmentOf doc).toList.map wsXmlDuplicateTree)
        [.text text], some xmlNsSoap12⟩ := by
    have hfault : wsmanIsFaultEnvelope (filledDoc text) = false := rfl
    rw [delivery, outboundAddressingFilter_filledDoc, hfault, if_neg Bool.false_ne_true,
      Wire.wsmanAddFragementForHeader, filledDoc, addSoapHeaders_createEnvelope, fragmentOf]
  dsimp only
  rw [hdelivery]
  have hint := hlx.le_intMax ⟨wsXmlCreateEnvelope idHeaders [.text text], some xmlNsSoap12⟩
  cases hfrag : fragmentOf doc with
  | none => exact ⟨le_refl _, fun h ↦ by cases h⟩
  | some f =>
    have hgrows := hlx.grows idHeaders (wsXmlDuplicateTree f) [.text text]
    rw [Libxml2.envelopeLength, Libxml2.envelopeLength] at hgrows
    rw [toList_some, map_singleton, Libxml2.envelopeLength]
    refine ⟨?_, fun _ ↦ hgrows⟩
    rcases hgrows with hlt | heq
    · exact hlt.le
    · rw [heq]
      exact hint

theorem exists_exceeding_length {ids : List String} {doc : WsXmlNode} (hadm : Admitted ids doc)
    (hkept : limitKept doc = false) (msg : WsmanMessage) :
    ∃ n, wsmanMinimalEnvelopeSizeRequest ≤ n ∧ n ≤ intMax ∧
      (toUInt (operationOf ids doc msg).maxsize = 0 ∨
        n ≤ toUInt (operationOf ids doc msg).maxsize) ∧
      (statedLimit doc < n ∨
        (statedLimit doc ≤ n ∧ n < intMax ∧ (fragmentOf doc).isSome = true)) := by
  have hfragment : (fragmentOf doc).isNone = false → (fragmentOf doc).isSome = true := by
    intro h
    cases hfrag : fragmentOf doc with
    | none => rw [hfrag] at h; cases h
    | some f => rfl
  rw [limitKept] at hkept
  rw [statedLimit]
  cases hnode : maxEnvelopeSizeOf doc with
  | none =>
    rw [hnode] at hkept
    rw [operationOf_maxsize_of_none hadm hnode]
    refine ⟨wsmanMaxEnvelopeSize, by decide, by decide, .inr (by decide), .inr ⟨?_, by decide,
      hfragment hkept⟩⟩
    exact le_refl _
  | some node =>
    rw [hnode, Bool.or_eq_false_iff, decide_eq_false_iff_not, not_le] at hkept
    obtain ⟨hlt, hkept⟩ := hkept
    dsimp only
    rcases operationOf_maxsize_of_some hadm hnode msg with
      ⟨hmu, hsize, hmin⟩ | ⟨-, hsize⟩
    · rw [hsize]
      have hlow := minimal_le_toUInt hmin
      by_cases h0 : 0 ≤ leadingInt node.chars
      · -- the limit is compared as stated, and the fragment header comes on top
        rw [hmu, decide_eq_true h0, Bool.true_and, Bool.true_and] at hkept
        have hlimit := toUInt_toULong_atoi h0 hlt.le
        refine ⟨toUInt (toULong (atoi node.chars)), hlow, by omega, .inr (le_refl _),
          .inr ⟨hlimit.ge, by omega, hfragment hkept⟩⟩
      · -- a negative number passes as a large one
        refine ⟨wsmanMinimalEnvelopeSizeRequest, le_refl _, by decide, .inr hlow, .inl ?_⟩
        omega
    · rw [hsize]
      exact ⟨intMax, by decide, le_refl _, .inl rfl, .inl hlt⟩

/-! ## When the limit is kept -/

mutual

def WsXmlNode.measure : WsXmlNode → ℕ
  | .element _ _ _ cs => 1 + measureAll cs
  | .text s => 1 + s.length

def WsXmlNode.measureAll : List WsXmlNode → ℕ
  | [] => 0
  | c :: cs => c.measure + measureAll cs

end

theorem measureAll_append (as bs : List WsXmlNode) :
    WsXmlNode.measureAll (as ++ bs) = WsXmlNode.measureAll as + WsXmlNode.measureAll bs := by
  induction as with
  | nil => rw [nil_append, measureAll, Nat.zero_add]
  | cons a as ih =>
    rw [cons_append, measureAll, measureAll, ih, Nat.add_assoc]

theorem measure_pos (n : WsXmlNode) : 0 < n.measure := by
  cases n <;> rw [WsXmlNode.measure] <;> omega

def measuringLibrary (doc : WsXmlNode) : Libxml2 where
  readMemory _ _ := some doc
  dumpMemoryEnc _ d := List.replicate (min intMax d.root.measure) 0
  nsPrefix _ := "n1"
  dumpMemoryEnc_ne_nil _ d := by
    rw [ne_eq, List.replicate_eq_nil_iff, Nat.min_eq_zero_iff, not_or]
    exact ⟨by decide, (measure_pos d.root).ne'⟩

theorem envelopeLength_measuringLibrary (doc : WsXmlNode) (charset : String)
    (header body : List WsXmlNode) :
    (measuringLibrary doc).envelopeLength charset header body =
      min intMax (3 + WsXmlNode.measureAll header + WsXmlNode.measureAll body) := by
  rw [Libxml2.envelopeLength, measuringLibrary]
  dsimp only
  rw [length_replicate, wsXmlCreateEnvelope]
  simp only [WsXmlNode.elem, WsXmlNode.measure, WsXmlNode.measureAll]
  congr 1
  omega

theorem measuringLibrary_lengths (doc : WsXmlNode) (charset : String) :
    (measuringLibrary doc).Lengths charset := by
  have hbase : WsXmlNode.measureAll idHeaders = 2 := rfl
  refine ⟨?_, ?_, ?_, ?_⟩
  · intro d
    rw [measuringLibrary]
    dsimp only
    rw [length_replicate]
    exact Nat.min_le_left _ _
  · rw [envelopeLength_measuringLibrary, hbase]
    decide
  · intro n hlt hmax
    rw [envelopeLength_measuringLibrary, hbase, WsXmlNode.measureAll] at hlt
    refine ⟨String.ofList (replicate (n - 6) 'a'), ?_⟩
    rw [envelopeLength_measuringLibrary, hbase]
    simp only [WsXmlNode.measureAll, WsXmlNode.measure, String.length_ofList, length_replicate]
    rw [intMax] at hmax hlt ⊢
    omega
  · intro header more body
    rw [envelopeLength_measuringLibrary, envelopeLength_measuringLibrary, measureAll_append]
    have hmore := measure_pos more
    simp only [WsXmlNode.measureAll]
    omega

def measuringServer (doc : WsXmlNode) (out : Option WsXmlDoc) : SoapServer ℕ Unit :=
  { linuxServer doc out with lx := measuringLibrary doc }

def smallEnvelopeDoc : WsXmlNode :=
  getDoc "http://schema.openwsman.org/wbem/Linux"
    [replyToAnonymous, .elem xmlNsWsMan wsmMaxEnvelopeSize [.text "100"]]

end Openwsman
