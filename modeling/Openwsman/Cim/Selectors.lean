import Mathlib.Data.List.Forall2
import Openwsman.Cim.Query
import Openwsman.Dispatcher.Inbound

/-!
# The selectors that an endpoint sees

`wsman_get_selectors_from_epr` reads the selector set of a request into a hash table. A selector is
known there by its attribute `wsman:Name`, or by a plain `Name` if it has none of that kind, and a
name that is already in the table is passed over.

Requests with two selectors of one name are meant to be refused before. The check for that,
`check_for_duplicate_selectors`, looks at plain names only.
-/

namespace Openwsman

open Option CResult List

/-! ## The names of a selector -/

def requestSelectors (doc : WsXmlNode) : List WsXmlNode :=
  match wsXmlFirstChild (wsXmlGetSoapHeader doc) xmlNsWsMan wsmSelectorSet with
  | none => []
  | some node => node.childrenNamed (some xmlNsWsMan) (some wsmSelector)

def plainName (selector : WsXmlNode) : Option String :=
  wsXmlFindAttrValue (some selector) none wsmName

def qualifiedName (selector : WsXmlNode) : Option String :=
  wsXmlFindAttrValue (some selector) (some xmlNsWsMan) wsmName

def selectorName (selector : WsXmlNode) : Option String :=
  (qualifiedName selector).orElse fun _ ↦ plainName selector

def namedSelectors (selectors : List WsXmlNode) : List WsXmlNode :=
  selectors.filter fun s ↦ (selectorName s).isSome

theorem selectorNames_headerOf (doc : WsXmlNode) :
    selectorNames (headerOf doc) = (requestSelectors doc).filterMap plainName := by
  have hheader : headerOf doc = wsXmlGetSoapHeader doc := by
    rw [headerOf, wsmanGetSoapHeaderElement]
    cases wsXmlGetSoapHeader doc <;> rfl
  rw [selectorNames, hheader, requestSelectors]
  cases wsXmlFirstChild (wsXmlGetSoapHeader doc) xmlNsWsMan wsmSelectorSet <;> rfl

theorem wsmanGetSelectorList_eq (doc : WsXmlNode) :
    wsmanGetSelectorList doc = selectorEntries [] (requestSelectors doc) := by
  rw [wsmanGetSelectorList, requestSelectors]
  cases wsXmlFirstChild (wsXmlGetSoapHeader doc) xmlNsWsMan wsmSelectorSet <;> rfl

/-! ## One turn of the loop -/

section

variable {seen : List (String × KeyValue)} {selector : WsXmlNode} {rest : List WsXmlNode}

theorem selectorEntries_of_unnamed (h : selectorName selector = none) :
    selectorEntries seen (selector :: rest) = selectorEntries seen rest := by
  rw [selectorName, qualifiedName, plainName] at h
  rw [selectorEntries, h]

theorem selectorEntries_of_seen {name : String} (h : selectorName selector = some name)
    (hseen : name ∈ seen.map Prod.fst) :
    selectorEntries seen (selector :: rest) = selectorEntries seen rest := by
  rw [selectorName, qualifiedName, plainName] at h
  have hany : (seen.any fun e ↦ e.1 == name) = true := by
    obtain ⟨e, he, rfl⟩ := mem_map.mp hseen
    exact any_eq_true.mpr ⟨e, he, beq_self_eq_true _⟩
  rw [selectorEntries, h]
  dsimp only
  rw [if_pos hany]

theorem selectorEntries_of_new {name : String} (h : selectorName selector = some name)
    (hseen : name ∉ seen.map Prod.fst) :
    selectorEntries seen (selector :: rest) =
      (selectorValue selector).bind fun kv ↦ selectorEntries (seen ++ [(name, kv)]) rest := by
  rw [selectorName, qualifiedName, plainName] at h
  have hany : ¬(seen.any fun e ↦ e.1 == name) = true := by
    intro hany
    obtain ⟨e, he, heq⟩ := any_eq_true.mp hany
    exact hseen (mem_map.mpr ⟨e, he, beq_iff_eq.mp heq⟩)
  rw [selectorEntries, h]
  dsimp only
  rw [if_neg hany]

end

/-! ## The table -/

structure EntryOf (selector : WsXmlNode) (entry : String × KeyValue) : Prop where
  name : selectorName selector = some entry.1
  value : selectorValue selector = .value entry.2

variable {selectors : List WsXmlNode}

theorem length_selectorEntries_le {seen table : List (String × KeyValue)}
    (h : selectorEntries seen selectors = .value table) :
    table.length ≤ seen.length + (namedSelectors selectors).length := by
  induction selectors generalizing seen with
  | nil =>
    rw [selectorEntries] at h
    cases h
    exact Nat.le_add_right _ _
  | cons s rest ih =>
    rw [namedSelectors, filter_cons]
    cases hname : selectorName s with
    | none =>
      rw [selectorEntries_of_unnamed hname] at h
      exact ih h
    | some name =>
      rw [isSome_some, if_pos rfl, length_cons]
      by_cases hseen : name ∈ seen.map Prod.fst
      · rw [selectorEntries_of_seen hname hseen] at h
        exact (ih h).trans (Nat.le_succ _)
      rw [selectorEntries_of_new hname hseen] at h
      obtain ⟨kv, -, hrest⟩ := bind_eq_value.mp h
      have hle := ih hrest
      rw [length_append, length_singleton] at hle
      rw [namedSelectors] at hle
      omega

theorem EntryOf.eq {selector : WsXmlNode} {entry : String × KeyValue} (h : EntryOf selector entry)
    {name : String} {kv : KeyValue} (hname : selectorName selector = some name)
    (hkv : selectorValue selector = .value kv) : entry = (name, kv) := by
  have hfst := some.inj (h.name.symm.trans hname)
  have hsnd := value.inj (h.value.symm.trans hkv)
  exact Prod.ext hfst hsnd

theorem selectorEntries_append {entries : List (String × KeyValue)}
    (h : List.Forall₂ EntryOf selectors entries) (rest : List WsXmlNode) :
    ∀ seen : List (String × KeyValue), (seen.map Prod.fst ++ entries.map Prod.fst).Nodup →
      selectorEntries seen (selectors ++ rest) = selectorEntries (seen ++ entries) rest := by
  induction h with
  | nil => intro seen _; rw [nil_append, append_nil]
  | @cons selector entry selectors entries hentry _ ih =>
    intro seen hnodup
    have hnew : entry.1 ∉ seen.map Prod.fst := by
      intro hmem
      exact (nodup_append.mp hnodup).2.2 _ hmem _ mem_cons_self rfl
    rw [cons_append, selectorEntries_of_new hentry.name hnew, hentry.value,
      value_bind, ih, append_assoc]
    · rfl
    · rw [map_append, append_assoc]
      exact hnodup

theorem exists_forall₂_entryOf_iff (selectors : List WsXmlNode) (seen : List (String × KeyValue))
    (hkeys : (seen.map Prod.fst).Nodup) :
    (∃ new, selectorEntries seen selectors = .value (seen ++ new) ∧
        List.Forall₂ EntryOf (namedSelectors selectors) new) ↔
      (seen.map Prod.fst ++ selectors.filterMap selectorName).Nodup ∧
        ∀ s ∈ namedSelectors selectors, ∃ kv, selectorValue s = .value kv := by
  induction selectors generalizing seen with
  | nil =>
    rw [filterMap_nil, append_nil]
    refine iff_of_true ⟨[], ?_, .nil⟩ ⟨hkeys, by simp [namedSelectors]⟩
    rw [selectorEntries, append_nil]
  | cons s rest ih =>
    rw [namedSelectors, filter_cons, filterMap_cons, ← namedSelectors]
    cases hname : selectorName s with
    | none =>
      rw [selectorEntries_of_unnamed hname]
      exact ih seen hkeys
    | some name =>
      rw [isSome_some, if_pos rfl]
      dsimp only
      by_cases hseen : name ∈ seen.map Prod.fst
      · -- the selector is passed over, so there is an entry less than there should be
        rw [selectorEntries_of_seen hname hseen]
        refine iff_of_false ?_ ?_
        · rintro ⟨new, hnew, hall⟩
          have hle := length_selectorEntries_le hnew
          have hlength := hall.length_eq
          rw [length_append] at hle
          rw [length_cons] at hlength
          omega
        · rintro ⟨hnodup, -⟩
          exact (nodup_append.mp hnodup).2.2 name hseen name mem_cons_self rfl
      · rw [selectorEntries_of_new hname hseen, forall_mem_cons]
        -- the induction goes on with the entry in the table
        have hnext : ∀ kv, ((seen ++ [(name, kv)]).map Prod.fst).Nodup := by
          intro kv
          rw [map_append]
          refine nodup_append.mpr ⟨hkeys, nodup_singleton name, ?_⟩
          rintro a ha b hb rfl
          obtain rfl : a = name := mem_singleton.mp hb
          exact hseen ha
        have hkeysAppend : ∀ kv,
            (seen ++ [(name, kv)]).map Prod.fst ++ rest.filterMap selectorName =
              seen.map Prod.fst ++ name :: rest.filterMap selectorName := by
          intro kv
          rw [map_append, append_assoc]
          rfl
        constructor
        · rintro ⟨_, hnew, hall⟩
          obtain ⟨kv, hkv, hrest⟩ := bind_eq_value.mp hnew
          cases hall with
          | cons hentry hall =>
            rename_i _ new
            rw [hentry.eq hname hkv, append_cons seen (name, kv) new] at hrest
            obtain ⟨hnodup, hvalues⟩ := (ih _ (hnext kv)).mp ⟨_, hrest, hall⟩
            exact ⟨hkeysAppend kv ▸ hnodup, ⟨kv, hkv⟩, hvalues⟩
        · rintro ⟨hnodup, ⟨kv, hkv⟩, hvalues⟩
          obtain ⟨new, hrest, hall⟩ := (ih _ (hnext kv)).mpr
            ⟨(hkeysAppend kv).symm ▸ hnodup, hvalues⟩
          refine ⟨(name, kv) :: new, ?_, .cons ⟨hname, hkv⟩ hall⟩
          rw [hkv, value_bind, hrest, append_assoc, singleton_append]

/-! ## One entry for each selector -/

def OneEntryEach (doc : WsXmlNode) : Prop :=
  ∃ table, wsmanGetSelectorList doc = .value table ∧
    List.Forall₂ EntryOf (namedSelectors (requestSelectors doc)) table

def QualifiedNamesUnique (selectors : List WsXmlNode) : Prop :=
  selectors.Pairwise fun a b ↦ (qualifiedName a).isSome || (qualifiedName b).isSome →
    selectorName a = none ∨ selectorName a ≠ selectorName b

instance (selectors : List WsXmlNode) : Decidable (QualifiedNamesUnique selectors) :=
  inferInstanceAs (Decidable (List.Pairwise _ _))

def referenceNamed (selector : WsXmlNode) : Bool :=
  match wsXmlFirstChild (some selector) xmlNsAddressing wsaEpr with
  | none => true
  | some _ =>
    Epr.keysWrittenOpt (eprDeserialize (some selector) (some xmlNsAddressing) (some wsaEpr) true)

theorem exists_selectorValue_iff (selector : WsXmlNode) :
    (∃ kv, selectorValue selector = .value kv) ↔ referenceNamed selector = true := by
  rw [selectorValue, referenceNamed]
  cases wsXmlFirstChild (some selector) xmlNsAddressing wsaEpr with
  | none => exact iff_of_true ⟨_, rfl⟩ rfl
  | some node =>
    dsimp only
    split
    · next h => exact iff_of_true ⟨_, rfl⟩ h
    · next h => exact iff_of_false (by rintro ⟨kv, hkv⟩; cases hkv) h

theorem selectorName_of_unqualified {selector : WsXmlNode}
    (h : (qualifiedName selector).isSome = false) : selectorName selector = plainName selector := by
  rw [selectorName, isSome_eq_false_iff.mp h |> isNone_iff_eq_none.mp]
  rfl

theorem nodup_selectorNames_iff (hplain : (selectors.filterMap plainName).Nodup) :
    (selectors.filterMap selectorName).Nodup ↔ QualifiedNamesUnique selectors := by
  rw [Nodup, pairwise_filterMap] at hplain ⊢
  rw [QualifiedNamesUnique]
  constructor
  · intro h
    refine h.imp ?_
    intro a b hab _
    cases ha : selectorName a with
    | none => exact .inl rfl
    | some name =>
      right
      intro hb
      exact hab name ha name hb.symm rfl
  · intro h
    refine (h.and hplain).imp ?_
    rintro a b ⟨hqualified, hab⟩ name ha name' hb rfl
    by_cases hq : ((qualifiedName a).isSome || (qualifiedName b).isSome) = true
    · rcases hqualified hq with hnone | hne
      · rw [hnone] at ha
        cases ha
      · exact hne (ha.trans hb.symm)
    · rw [Bool.not_eq_true, Bool.or_eq_false_iff] at hq
      rw [selectorName_of_unqualified hq.1] at ha
      rw [selectorName_of_unqualified hq.2] at hb
      exact hab name ha name hb rfl

def selectingDoc (selectors : List WsXmlNode) : WsXmlNode :=
  wsXmlCreateEnvelope
    [.elem xmlNsAddressing wsaMessageId [.text "uuid:1"],
      .elem xmlNsWsMan wsmSelectorSet selectors] []

def selectorElement (ns : Option String) (name text : String) : WsXmlNode :=
  .element (some xmlNsWsMan) wsmSelector [⟨ns, wsmName, name⟩] [.text text]

theorem admitted_selectingDoc (h : (selectorNames (headerOf (selectingDoc selectors))).Nodup) :
    Admitted [] (selectingDoc selectors) := ⟨rfl, rfl, rfl, rfl, h⟩

end Openwsman
