import Openwsman.Client.Envelope

/-!
# The options of a request

The client puts two of its flags and a table of user options into the option set of a request. The
server looks an option up with `wsman_get_option_set` of `wsman-soap-envelope.c`, which goes through
the options of the namespace of WS-Management only. The flag `ExcludeNilProperties` is written in a
namespace of its own, so the server does not see it.
-/

namespace Openwsman

open List WsXmlNode

/-! ## Looking an option up -/

def isOptionFor (op : String) (option : WsXmlNode) : Bool :=
  wsXmlFindAttrValue (some option) none wsmName == some op

def wsmanGetOptionSet (doc : WsXmlNode) (op : String) : Option String :=
  (wsXmlFirstChild (wsXmlGetSoapHeader doc) xmlNsWsMan wsmOptionSet).bind fun node ↦
    ((node.childrenNamed (some xmlNsWsMan) (some wsmOption)).find? (isOptionFor op)).map
      fun option ↦ if option.chars == "" then "true" else option.chars

/-! ## The requests of the client -/

def IsEnvelopeHeaders (lx : Libxml) (headers : List WsXmlNode) : Prop :=
  headers = [] ∨ ∃ action replyTo resourceUri toUri uuid options,
    wsmcBuildEnvelope lx action replyTo resourceUri toUri uuid options =
      .value (wsXmlCreateEnvelope headers [])

def optionRequestDoc (lx : Libxml) (headers : List WsXmlNode) (options : RequestOptions)
    (body : List WsXmlNode) : WsXmlNode :=
  wsXmlCreateEnvelope (headers ++ optionSet lx options) body

def shownOptions (lx : Libxml) (options : RequestOptions) : List (String × List WsXmlNode) :=
  (if options.cimExtensions then [(wsmbShowExtension, [])] else []) ++
    options.options.map fun option ↦ (option.1, lx.content (some option.2))

def shownElement (option : String × List WsXmlNode) : WsXmlNode :=
  namedOption xmlNsWsMan option.1 option.2

theorem isNamed_namedOption (ns name : String) (content : List WsXmlNode) :
    (namedOption ns name content).isNamed ns wsmOption = true :=
  isNamed_iff.mpr ⟨rfl, rfl, rfl⟩

theorem isOptionFor_namedOption (op ns name : String) (content : List WsXmlNode) :
    isOptionFor op (namedOption ns name content) = (name == op) := by
  rw [isOptionFor, wsXmlFindAttrValue]
  rfl

theorem find?_map_shownElement (op : String) (table : List (String × List WsXmlNode)) :
    (table.map shownElement).find? (isOptionFor op) =
      (table.lookup op).map fun content ↦ shownElement (op, content) := by
  induction table with
  | nil => rfl
  | cons option table ih =>
    obtain ⟨name, content⟩ := option
    rw [map_cons, find?_cons, shownElement, isOptionFor_namedOption, lookup_cons]
    by_cases h : name = op
    · subst h
      rw [beq_self_eq_true]
      rfl
    · rw [beq_false_of_ne h, beq_false_of_ne (Ne.symm h)]
      exact ih

theorem filter_isNamed_optionSet (lx : Libxml) (options : RequestOptions) :
    (((if options.cimExtensions then [namedOption xmlNsWsMan wsmbShowExtension []] else []) ++
      (if options.excludeNilProps then [namedOption xmlNsOpenwsman wsmbExcludeNilProps []]
        else []) ++
      options.options.map fun option ↦
        namedOption xmlNsWsMan option.1 (lx.content (some option.2))).filter
          (isNamed xmlNsWsMan wsmOption)) = (shownOptions lx options).map shownElement := by
  have hshown (l : List (String × List WsXmlNode)) :
      (l.map shownElement).filter (isNamed xmlNsWsMan wsmOption) = l.map shownElement := by
    rw [filter_eq_self]
    intro n hn
    obtain ⟨option, -, rfl⟩ := mem_map.mp hn
    exact isNamed_namedOption _ _ _
  have hflag : (if options.cimExtensions then [namedOption xmlNsWsMan wsmbShowExtension []]
      else []) = (if options.cimExtensions then [(wsmbShowExtension, [])] else []).map
        shownElement := by
    split <;> rfl
  have hown : (if options.excludeNilProps then [namedOption xmlNsOpenwsman wsmbExcludeNilProps []]
      else []).filter (isNamed xmlNsWsMan wsmOption) = [] := by
    split <;> rfl
  have huser : (options.options.map fun option ↦
      namedOption xmlNsWsMan option.1 (lx.content (some option.2))) =
        (options.options.map fun option ↦ (option.1, lx.content (some option.2))).map
          shownElement := by
    rw [map_map]
    rfl
  rw [filter_append, filter_append, hflag, hown, huser, hshown, hshown, append_nil,
    shownOptions, map_append]

theorem wsmanGetOptionSet_requestDoc {lx : Libxml} {headers : List WsXmlNode}
    (hheaders : IsEnvelopeHeaders lx headers) (options : RequestOptions) (body : List WsXmlNode)
    (op : String) :
    wsmanGetOptionSet (optionRequestDoc lx headers options body) op =
      ((shownOptions lx options).lookup op).map fun content ↦
        if charsAll content == "" then "true" else charsAll content := by
  have hnone : headers.find? (isNamed xmlNsWsMan wsmOptionSet) = none := by
    rcases hheaders with rfl | ⟨action, replyTo, resourceUri, toUri, uuid, headerOptions, hbuild⟩
    · rfl
    rw [find?_eq_none]
    intro n hn
    rw [(allNamed_built_of_wsmcBuildEnvelope hbuild).not_isNamed (by decide) n hn]
    exact Bool.false_ne_true
  have hheader : wsXmlGetSoapHeader (optionRequestDoc lx headers options body) =
      some (.elem xmlNsSoap12 soapHeader (headers ++ optionSet lx options)) := rfl
  rw [wsmanGetOptionSet, hheader, wsXmlFirstChild_eq_find?, content_elem, find?_append, hnone,
    Option.none_or, optionSet]
  split
  · rw [find?_cons_of_pos (isNamed_elem _ _ _), Option.bind_some, childrenNamed_eq_filter,
      content_elem, filter_isNamed_optionSet, find?_map_shownElement, Option.map_map]
    rfl
  · next hempty =>
    -- without options there is no option set
    simp only [Bool.or_eq_true, Bool.not_eq_true', not_or, Bool.not_eq_true,
      Bool.not_eq_false] at hempty
    rw [shownOptions, hempty.1.1, isEmpty_iff.mp hempty.2]
    rfl

/-! ## What the server should read -/

structure OptionsRead (doc : WsXmlNode) (options : RequestOptions) : Prop where
  showExtension : options.cimExtensions = true →
    wsmanGetOptionSet doc wsmbShowExtension = some "true"
  excludeNil : options.excludeNilProps = true →
    wsmanGetOptionSet doc wsmbExcludeNilProps = some "true"
  user : ∀ option ∈ options.options, option.2 ≠ "" →
    wsmanGetOptionSet doc option.1 = some option.2
  other : ∀ op, (op = wsmbShowExtension → options.cimExtensions = false) →
    (op = wsmbExcludeNilProps → options.excludeNilProps = false) →
    op ∉ options.options.map Prod.fst → wsmanGetOptionSet doc op = none

section

variable {lx : Libxml} {options : RequestOptions}

theorem lookup_shownOptions_of_ne {op : String} (h : op ≠ wsmbShowExtension) :
    (shownOptions lx options).lookup op =
      (options.options.lookup op).map fun value ↦ lx.content (some value) := by
  have hmap : ∀ table : List (String × String),
      (table.map fun option ↦ (option.1, lx.content (some option.2))).lookup op =
        (table.lookup op).map fun value ↦ lx.content (some value) := by
    intro table
    induction table with
    | nil => rfl
    | cons option table ih =>
      rw [map_cons, lookup_cons, lookup_cons]
      rcases op == option.1 with _ | _
      · exact ih
      · rfl
  rw [shownOptions]
  split
  · rw [singleton_append, lookup_cons, beq_false_of_ne h]
    exact hmap _
  · exact hmap _

theorem lookup_shownOptions_showExtension
    (h : wsmbShowExtension ∉ options.options.map Prod.fst) :
    (shownOptions lx options).lookup wsmbShowExtension =
      if options.cimExtensions then some [] else none := by
  rw [shownOptions]
  split
  · rfl
  rw [nil_append, lookup_eq_none_iff]
  rintro ⟨name, content⟩ hmem
  obtain ⟨option, hoption, heq⟩ := mem_map.mp hmem
  cases heq
  rw [bne_iff_ne]
  intro heq
  exact h (heq ▸ mem_map_of_mem hoption)

theorem lookup_eq_none_of_not_mem {op : String} (h : op ∉ options.options.map Prod.fst) :
    options.options.lookup op = none := by
  rw [lookup_eq_none_iff]
  intro option hoption
  rw [bne_iff_ne]
  rintro rfl
  exact h (mem_map_of_mem hoption)

theorem lookup_of_mem {table : List (String × String)} (hkeys : (table.map Prod.fst).Nodup)
    {option : String × String} (h : option ∈ table) : table.lookup option.1 = some option.2 := by
  induction table with
  | nil => cases h
  | cons first table ih =>
    rw [map_cons, nodup_cons] at hkeys
    rw [lookup_cons]
    rcases mem_cons.mp h with rfl | h
    · rw [beq_self_eq_true]
    · have hne : option.1 ≠ first.1 := fun heq ↦ hkeys.1 (heq ▸ mem_map_of_mem h)
      rw [beq_false_of_ne hne]
      exact ih hkeys.2 h

end

/-- **The server reads the flags and the user options of the client exactly when `ExcludeNil` is not
among them and libxml2 keeps the values.** -/
theorem optionsRead_iff {lx : Libxml} {headers : List WsXmlNode}
    (hheaders : IsEnvelopeHeaders lx headers) (options : RequestOptions) (body : List WsXmlNode)
    (hkeys : (options.options.map Prod.fst).Nodup)
    (hshow : wsmbShowExtension ∉ options.options.map Prod.fst)
    (hexclude : wsmbExcludeNilProps ∉ options.options.map Prod.fst) :
    OptionsRead (optionRequestDoc lx headers options body) options ↔
      options.excludeNilProps = false ∧
        ∀ option ∈ options.options, option.2 ≠ "" → lx.kept option.2 = option.2 := by
  have huser : ∀ option ∈ options.options,
      wsmanGetOptionSet (optionRequestDoc lx headers options body) option.1 =
        some (if lx.kept option.2 == "" then "true" else lx.kept option.2) := by
    intro option hoption
    have hne : option.1 ≠ wsmbShowExtension := fun heq ↦ hshow (heq ▸ mem_map_of_mem hoption)
    have hchars : charsAll (lx.content (some option.2)) = lx.kept option.2 := String.append_empty
    rw [wsmanGetOptionSet_requestDoc hheaders, lookup_shownOptions_of_ne hne,
      lookup_of_mem hkeys hoption, Option.map_some, Option.map_some, hchars]
  have hnone : wsmanGetOptionSet (optionRequestDoc lx headers options body) wsmbExcludeNilProps =
      none := by
    rw [wsmanGetOptionSet_requestDoc hheaders, lookup_shownOptions_of_ne (by decide),
      lookup_eq_none_of_not_mem hexclude]
    rfl
  constructor
  · intro hread
    refine ⟨?_, fun option hoption hne ↦ ?_⟩
    · by_contra hset
      rw [Bool.not_eq_false] at hset
      have hread := hread.excludeNil hset
      rw [hnone] at hread
      cases hread
    · have hread := hread.user option hoption hne
      rw [huser option hoption, Option.some.injEq] at hread
      split at hread
      · -- an empty text would be read as the word that libxml2 keeps
        rw [← hread]
        exact lx.kept_of_not_mem (by decide)
      · exact hread
  · rintro ⟨hset, hkept⟩
    refine ⟨fun hext ↦ ?_, fun h ↦ ?_, fun option hoption hne ↦ ?_, fun op hop _ hmem ↦ ?_⟩
    · rw [wsmanGetOptionSet_requestDoc hheaders, lookup_shownOptions_showExtension hshow,
        if_pos hext]
      rfl
    · rw [hset] at h
      cases h
    · rw [huser option hoption, hkept option hoption hne, if_neg (by simpa using hne)]
    rw [wsmanGetOptionSet_requestDoc hheaders]
    by_cases hext : op = wsmbShowExtension
    · subst hext
      rw [lookup_shownOptions_showExtension hshow, hop rfl]
      rfl
    · rw [lookup_shownOptions_of_ne hext, lookup_eq_none_of_not_mem hmem]
      rfl

def cimResourceFlags (omitSchemaOptional : Bool) (doc : WsXmlNode) : Bool × Bool :=
  (wsmanGetOptionSet doc wsmbShowExtension == some "true",
    wsmanGetOptionSet doc wsmbExcludeNilProps == some "true" || omitSchemaOptional)

/-- **The flags of the client in the CIM plugin.** The plugin shows extensions exactly if the client
asks for them, and it never learns that nil properties are to be left out. -/
theorem cimResourceFlags_optionRequestDoc {lx : Libxml} {headers : List WsXmlNode}
    (hheaders : IsEnvelopeHeaders lx headers) (options : RequestOptions) (body : List WsXmlNode)
    (hshow : wsmbShowExtension ∉ options.options.map Prod.fst)
    (hexclude : wsmbExcludeNilProps ∉ options.options.map Prod.fst) (omitSchemaOptional : Bool) :
    cimResourceFlags omitSchemaOptional (optionRequestDoc lx headers options body) =
      (options.cimExtensions, omitSchemaOptional) := by
  rw [cimResourceFlags, wsmanGetOptionSet_requestDoc hheaders,
    wsmanGetOptionSet_requestDoc hheaders, lookup_shownOptions_showExtension hshow,
    lookup_shownOptions_of_ne (by decide), lookup_eq_none_of_not_mem hexclude]
  cases options.cimExtensions <;> rfl

def verboseOptions : RequestOptions := { cimExtensions := true, options := [("Verbose", "2")] }

theorem optionsRead_verboseOptions :
    OptionsRead (optionRequestDoc keepsText [] verboseOptions []) verboseOptions :=
  (optionsRead_iff (.inl rfl) verboseOptions [] (by decide) (by decide) (by decide)).mpr
    ⟨rfl, fun option hoption _ ↦ by
      rw [mem_singleton.mp hoption]
      exact keepsText.kept_of_not_mem (by decide)⟩

theorem cimResourceFlags_verboseOptions :
    cimResourceFlags false (optionRequestDoc keepsText [] verboseOptions []) = (true, false) :=
  cimResourceFlags_optionRequestDoc (.inl rfl) verboseOptions [] (by decide) (by decide) false

/-- The option `ExcludeNilProperties` is there, but it is not found. -/
theorem not_optionsRead_excludeNil :
    ¬OptionsRead (optionRequestDoc keepsText [] { excludeNilProps := true } [])
      { excludeNilProps := true } := by
  intro hread
  have hfound := hread.excludeNil rfl
  rw [wsmanGetOptionSet_requestDoc (.inl rfl)] at hfound
  exact absurd hfound (by decide)

end Openwsman
