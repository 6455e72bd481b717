import Openwsman.Xml.Edit

/-!
# Writing text

Elements are written with `ws_xml_add_child`, which hands the text to `xmlNodeSetContent` of
libxml2. A text with an ampersand is taken there for one with references to entities, and what
becomes of it is not decided by this code: it is a parameter, like the parser. Attributes are
written as they are.
-/

namespace Openwsman

structure Libxml where
  expand : String → String
  readMemory : String → Option WsXmlNode := fun _ ↦ none

namespace Libxml

variable (lx : Libxml)

def kept (text : String) : String :=
  if text.toList.contains '&' then lx.expand text else text

/-- The content of a new element. `NULL` leaves it empty. -/
def content : Option String → List WsXmlNode
  | none => []
  | some text => [.text (lx.kept text)]

def child (ns name : String) (text : Option String) : WsXmlNode := .elem ns name (lx.content text)

mutual

def duplicateTree : WsXmlNode → WsXmlNode
  | .element ns name attrs content =>
    let children := duplicateChildren content
    .element ns name attrs
      (if children.isEmpty then lx.content (some (WsXmlNode.charsAll content)) else children)
  | .text chars => .text chars

def duplicateChildren : List WsXmlNode → List WsXmlNode
  | [] => []
  | c :: cs => if c.isElement then duplicateTree c :: duplicateChildren cs else duplicateChildren cs

end

theorem kept_of_not_mem {text : String} (h : '&' ∉ text.toList) : lx.kept text = text := by
  rw [kept, if_neg (by simpa using h)]

@[simp] theorem chars_child (ns name text : String) :
    (lx.child ns name (some text)).chars = lx.kept text := by
  change lx.kept text ++ "" = lx.kept text
  rw [String.append_empty]

theorem isNamed_child (ns name : String) (text : Option String) :
    (lx.child ns name text).isNamed ns name = true :=
  WsXmlNode.isNamed_elem ns name _

theorem isNamed_child_of_ne {ns name ns' name' : String} (h : (ns', name') ≠ (ns, name))
    (text : Option String) : (lx.child ns name text).isNamed ns' name' = false :=
  WsXmlNode.isNamed_of_ne (lx.isNamed_child ns name text) h

end Libxml

def keepsText : Libxml where
  expand := id

end Openwsman
