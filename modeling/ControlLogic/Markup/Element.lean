import ControlLogic.Table
import ControlLogic.Text.Basic

/-!
# Elements of a markup document

An element has a name, attributes in order, child elements, the text before its first child
and the text that follows its own end.  A name from a namespace is written with the
namespace in braces before it.
-/

namespace ControlLogic.Markup

/-- An element with all it holds. -/
structure Element where
  tag : String
  attributes : Table String String := Table.empty
  /-- The text before the first child. -/
  text : Option String := none
  children : List Element := []
  /-- The text after the end of the element. -/
  tail : Option String := none

namespace Element

instance : Inhabited Element := ⟨{ tag := "" }⟩

/-- The attribute `k`. -/
def attribute? (e : Element) (k : String) : Option String := e.attributes.get? k

/-- The attribute `k`, or `d`. -/
def attributeD (e : Element) (k d : String) : String := (e.attribute? k).getD d

/-- The element with the attribute `k` set. -/
def set (e : Element) (k v : String) : Element :=
  { e with attributes := e.attributes.insert k v }

/-- An element without content. -/
def leaf (tag : String) (attributes : List (String × String)) : Element :=
  { tag, attributes := Table.ofList attributes }

/-- An element with text alone. -/
def ofText (tag text : String) : Element := { tag, text := some text }

/-- The text before the first child, empty if there is none. -/
def content (e : Element) : String := e.text.getD ""

/-- The text before the first child, if it is not empty. -/
def text? (e : Element) : Option String := e.text.filter (!Text.isEmpty ·)

/-- The children with the name `tag`. -/
def childrenNamed (e : Element) (tag : String) : List Element :=
  e.children.filter (·.tag == tag)

/-- The first child with the name `tag`. -/
def child? (e : Element) (tag : String) : Option Element :=
  e.children.find? (·.tag == tag)

mutual

/-- The element and all elements below it, in document order. -/
def all : Element → List Element
  | ⟨tag, attributes, text, children, tail⟩ =>
    ⟨tag, attributes, text, children, tail⟩ :: allOf children

/-- Elements with all below them, in document order. -/
def allOf : List Element → List Element
  | [] => []
  | e :: rest => all e ++ allOf rest

end

/-- All elements below, in document order. -/
def descendants (e : Element) : List Element := allOf e.children

/-- The elements below with the name `tag`. -/
def descendantsNamed (e : Element) (tag : String) : List Element :=
  e.descendants.filter (·.tag == tag)

/-- The first element below with the name `tag`. -/
def descendant? (e : Element) (tag : String) : Option Element :=
  e.descendants.find? (·.tag == tag)

mutual

/-- What passes from the children of an element to the element holds of every element. -/
theorem induct {P : Element → Prop} (h : ∀ e, (∀ c ∈ e.children, P c) → P e) : ∀ e, P e
  | ⟨_, _, _, children, _⟩ => h _ (inductOf h children)

theorem inductOf {P : Element → Prop} (h : ∀ e, (∀ c ∈ e.children, P c) → P e) :
    ∀ es : List Element, ∀ c ∈ es, P c
  | [] => fun _ hc => absurd hc List.not_mem_nil
  | e :: rest => fun c hc =>
    (List.mem_cons.1 hc).elim (fun he => he ▸ induct h e) (inductOf h rest c)

end

theorem all_eq_cons (e : Element) : e.all = e :: e.descendants := by cases e; rfl

theorem allOf_eq_flatMap (es : List Element) : allOf es = es.flatMap all := by
  induction es with
  | nil => rfl
  | cons e es ih => rw [allOf, ih, List.flatMap_cons]

/-- What holds of an element and all below it, child by child. -/
theorem forall_mem_all {P : Element → Prop} {e : Element} :
    (∀ x ∈ e.all, P x) ↔ P e ∧ ∀ c ∈ e.children, ∀ x ∈ c.all, P x := by
  rw [all_eq_cons, descendants, allOf_eq_flatMap]
  simp only [List.mem_cons, List.mem_flatMap, forall_eq_or_imp, forall_exists_index, and_imp]
  exact and_congr_right fun _ => ⟨fun h c hc x hx => h x c hc hx, fun h x c hc hx => h c hc x hx⟩

theorem mem_all_of_child {e c x : Element} (hc : c ∈ e.children) (hx : x ∈ c.all) :
    x ∈ e.all := by
  rw [all_eq_cons, descendants, allOf_eq_flatMap]
  exact List.mem_cons_of_mem _ (List.mem_flatMap.2 ⟨c, hc, hx⟩)

theorem filter_allOf {tag : String} {es : List Element}
    (h : ∀ x ∈ es, x.descendantsNamed tag = []) :
    (allOf es).filter (·.tag == tag) = es.filter (·.tag == tag) := by
  induction es with
  | nil => rfl
  | cons x es ih =>
    have hx : (allOf x.children).filter (·.tag == tag) = [] := h x List.mem_cons_self
    have hall : all x = x :: allOf x.children := all_eq_cons x
    rw [allOf, hall, List.filter_append, List.filter_cons, hx,
      ih fun y hy => h y (List.mem_cons_of_mem _ hy), List.filter_cons]
    split <;> rfl

/-- Where no child holds elements with a name, those below are the children with it. -/
theorem descendantsNamed_eq_childrenNamed {e : Element} {tag : String}
    (h : ∀ x ∈ e.children, x.descendantsNamed tag = []) :
    e.descendantsNamed tag = e.childrenNamed tag :=
  filter_allOf h

theorem descendant?_eq_child? {e : Element} {tag : String}
    (h : ∀ x ∈ e.children, x.descendantsNamed tag = []) : e.descendant? tag = e.child? tag := by
  rw [descendant?, child?, ← List.head?_filter, ← List.head?_filter]
  exact congrArg List.head? (filter_allOf h)

end Element

end ControlLogic.Markup
