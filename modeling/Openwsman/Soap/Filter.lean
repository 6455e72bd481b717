import Openwsman.Soap.Epr

/-!
# Filters

`filter_deserialize` of `wsman-filter.c` reads the filter of an Enumerate or Subscribe request. It
returns `NULL` both when there is no filter element and when the element it found cannot be turned
into a filter, and its callers do not distinguish the two.

For an association filter the number of result properties is taken to be the number of element
children less four. With fewer than four children that is negative, the size of the array becomes
a huge unsigned number, the allocation fails and the filter is given up.
-/

namespace Openwsman

inductive AssocType where
  | associatedInstances
  | associationInstances
  deriving DecidableEq, Repr

structure Filter where
  dialect : String
  query : Option String := none
  epr : Option Epr := none
  /-- The selector array: places behind the last `Selector` are never written. -/
  selectorset : List (Cell KeyValue) := []
  assocType : AssocType := .associatedInstances
  assocClass : Option String := none
  resultClass : Option String := none
  role : Option String := none
  resultRole : Option String := none
  resultProp : List String := []

/-- Without a `Dialect` the value of the first attribute is taken, whatever it is. -/
def filterDialect (filterNode : WsXmlNode) : String :=
  match wsXmlFindAttrValue (some filterNode) none wsmDialect with
  | some dialect => dialect
  | none =>
    match wsXmlGetNodeAttr (some filterNode) 0 with
    | some attr => attr.value
    | none => wsmXpathFilterDialect

def cimBindingText (instanceNode : WsXmlNode) (name : String) : Option String :=
  (wsXmlFirstChild (some instanceNode) xmlNsCimBinding name).map fun n ↦
    wsXmlGetNodeTextSafe (some n)

def assocInstanceNode (filterNode : WsXmlNode) : Option (AssocType × WsXmlNode) :=
  match wsXmlFirstChild (some filterNode) xmlNsCimBinding wsmbAssociatedInstances with
  | some n => some (.associatedInstances, n)
  | none =>
    (wsXmlFirstChild (some filterNode) xmlNsCimBinding wsmbAssociationInstances).map fun n ↦
      (.associationInstances, n)

def properNum (instanceNode : WsXmlNode) : ℤ := (wsXmlGetChildCount (some instanceNode) : ℤ) - 4

def assocObject (instanceNode : WsXmlNode) : Option Epr :=
  eprDeserialize (some instanceNode) (some xmlNsCimBinding) (some wsmbObject) true

def assocFilter (filterNode : WsXmlNode) : CResult (Option Filter) :=
  match assocInstanceNode filterNode with
  | none => .value none
  | some (assocType, inst) =>
    -- no allocation can satisfy a negative size; the filter read so far is destroyed
    if properNum inst < 0 then
      if Epr.keysWrittenOpt (assocObject inst) then .value none else .undefined
    else
      .value (some
        { dialect := wsmAssociationFilterDialect
          assocType := assocType
          epr := assocObject inst
          assocClass := cimBindingText inst wsmbAssociationClassName
          role := cimBindingText inst wsmbRole
          resultClass := cimBindingText inst wsmbResultClassName
          resultRole := cimBindingText inst wsmbResultRole
          resultProp :=
            ((inst.childrenNamed (some xmlNsCimBinding) (some wsmbIncludeResultProperty)).take
              (properNum inst).toNat).map fun n ↦ wsXmlGetNodeTextSafe (some n) })

/-- One place of the selector array. The reference of a selector is copied into its place. -/
def filterSelector (entry : WsXmlNode) : CResult KeyValue :=
  let key : Cell (Option String) := .init (wsXmlFindAttrValue (some entry) none wsmName)
  match wsXmlFirstChild (some entry) xmlNsAddressing wsaEpr with
  | none => .value (.text key (wsXmlGetNodeTextSafe (some entry)))
  | some inst =>
    let epr := eprDeserialize (some inst) none none true
    if Epr.keysWrittenOpt epr then .value (.epr key epr) else .undefined

def filterSelectors : List WsXmlNode → CResult (List KeyValue)
  | [] => .value []
  | n :: ns => (filterSelector n).bind fun s ↦ (filterSelectors ns).bind fun ss ↦ .value (s :: ss)

def selectorFilter (filterNode : WsXmlNode) : CResult (Option Filter) :=
  match wsXmlFirstChild (some filterNode) xmlNsWsMan wsmSelectorSet with
  | none => .value none
  | some set =>
    let entries := set.childrenNamed (some xmlNsWsMan) (some wsmSelector)
    (filterSelectors entries).bind fun ss ↦
      .value (some
        { dialect := wsmSelectorFilterDialect
          selectorset := ss.map .init ++
            List.replicate (wsXmlGetChildCount (some set) - entries.length) .uninit })

def filterOfNode (filterNode : WsXmlNode) : CResult (Option Filter) :=
  let dialect := filterDialect filterNode
  if dialect == wsmAssociationFilterDialect then assocFilter filterNode
  else if dialect == wsmSelectorFilterDialect then selectorFilter filterNode
  else
    .value (some { dialect := dialect, query := some (wsXmlGetNodeTextSafe (some filterNode)) })

def filterDeserialize (node : Option WsXmlNode) (ns : String) : CResult (Option Filter) :=
  match wsXmlFirstChild node ns wsmFilter with
  | none => .value none
  | some filterNode => filterOfNode filterNode

end Openwsman
