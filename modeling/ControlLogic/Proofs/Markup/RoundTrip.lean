import ControlLogic.Markup.Reader
import ControlLogic.Proofs.Markup.Tokens
import ControlLogic.Proofs.Text.Chars

/-!
# Written markup is read back

`Element.render` writes an element, and `Element.parse?` reads an element from a text.  This
file shows that reading undoes writing: `parse?_render`.  The elements it speaks of are the
`Writable` ones: their names have no namespaces, and their texts may stand in a document.  One
thing is not kept, the line ends of texts.  `Element.unified` is the element with all its line
ends unified.

The proof has three parts.

* `reads_chars`: the tokens of the written element are `Element.tokens`.
* `build_tokens`: from these tokens the reader builds the element again.  The induction runs
  over an open element that takes one child after the other.
* `unifyLineEnds_chars`: to unify the line ends of the written text is to unify those of the
  element.
-/

namespace ControlLogic.Markup

/-! ## Plain names -/

theorem IsPlainName.not_mem {name : String} (h : IsPlainName name) {c : Char}
    (hc : Token.isNameChar c = false) : c ∉ name.toList := by
  intro hmem
  rw [h.isNameChar c hmem] at hc
  cases hc

/-- A plain name has no namespace that would be written with a short name. -/
theorem IsPlainName.splitName {name : String} (h : IsPlainName name) : splitName name = none := by
  have hbrace : '\x7b' ∉ name.toList := h.not_mem (by decide)
  unfold Markup.splitName
  split
  · rename_i heq
    exact absurd (by rw [heq]; exact List.mem_cons_self) hbrace
  · rfl

/-- A plain name has no short name before it. -/
theorem IsPlainName.splitWritten {name : String} (h : IsPlainName name) :
    splitWritten name = none := by
  have hcolon : ':' ∉ name.toList := h.not_mem (by decide)
  rw [Markup.splitWritten, Text.split, List.splitOn_eq_singleton hcolon]
  rfl

theorem IsPlainName.isDeclaringName {name : String} (h : IsPlainName name)
    (hne : name ≠ "xmlns") : isDeclaringName name = false := by
  have hcolon : ':' ∉ name.toList := h.not_mem (by decide)
  have hstart : Text.startsWith "xmlns:" name = false := by
    rw [Bool.eq_false_iff]
    intro hstart
    rw [Text.startsWith, List.isPrefixOf_iff_prefix] at hstart
    exact hcolon (hstart.subset (by decide))
  rw [Markup.isDeclaringName, hstart, decide_eq_false hne, Bool.or_false]

namespace Element

/-! ## Writable elements -/

/-- An element that is read as it was written, what is below it aside. -/
structure Plain (e : Element) : Prop where
  tag : IsPlainName e.tag
  attributes : ∀ a ∈ e.attributes.entries, Token.IsPlainAttribute a
  distinct : e.attributes.keys.Nodup
  text : ∀ s, e.text = some s → s ≠ "" ∧ IsLegal s
  tail : e.tail = none

/-- An element that is plain with all below it. -/
def Writable (e : Element) : Prop := ∀ x ∈ e.all, x.Plain

theorem writable_iff {e : Element} : e.Writable ↔ e.Plain ∧ ∀ c ∈ e.children, c.Writable :=
  forall_mem_all

/-- An element without text, made from a list of attributes. -/
theorem Plain.of_attributes {tag : String} {attributes : List (String × String)}
    (htag : IsPlainName tag) (h : ∀ a ∈ attributes, Token.IsPlainAttribute a)
    (children : List Element) :
    Plain { tag, attributes := .ofList attributes, children } where
  tag := htag
  attributes := fun a ha => h a (Table.mem_of_mem_entries_ofList ha)
  distinct := Table.nodup_keys_ofList attributes
  text := fun _ hs => absurd hs (Option.some_ne_none _).symm
  tail := rfl

/-- A plain element may be given a text. -/
theorem Plain.withText {e : Element} (h : e.Plain) {s : String} (hne : s ≠ "")
    (hs : IsLegal s) : Plain { e with text := some s } :=
  { h with text := fun _ ht => Option.some.inj ht ▸ ⟨hne, hs⟩ }

theorem plain_nil : ∀ a ∈ ([] : List (String × String)), Token.IsPlainAttribute a :=
  List.forall_mem_nil _

theorem plain_cons {k v : String} (hname : IsPlainName k) (hk : k ≠ "xmlns") (hv : IsLegal v)
    {l : List (String × String)} (h : ∀ a ∈ l, Token.IsPlainAttribute a) :
    ∀ a ∈ (k, v) :: l, Token.IsPlainAttribute a :=
  List.forall_mem_cons.2 ⟨⟨hname, hk, hv⟩, h⟩

theorem writable_leaf {tag : String} {attributes : List (String × String)}
    (htag : IsPlainName tag) (h : ∀ a ∈ attributes, Token.IsPlainAttribute a) :
    (leaf tag attributes).Writable :=
  writable_iff.2 ⟨.of_attributes htag h [], List.forall_mem_nil _⟩

theorem writable_ofText {tag text : String} (htag : IsPlainName tag) (hne : text ≠ "")
    (htext : IsLegal text) : (ofText tag text).Writable :=
  writable_iff.2 ⟨(Plain.of_attributes htag plain_nil []).withText hne htext,
    List.forall_mem_nil _⟩

/-- No namespace comes up in a writable element. -/
theorem shortNames_eq_empty {e : Element} (h : e.Writable) : shortNames e = Table.empty := by
  have hkeys : ∀ (ks : List String), (∀ k ∈ ks, splitName k = none) →
      ks.foldl noteName (Table.empty : Table String String) = Table.empty := by
    intro ks hks
    induction ks with
    | nil => rfl
    | cons k ks ih =>
      rw [List.foldl_cons, noteName, hks k List.mem_cons_self]
      exact ih fun j hj => hks j (List.mem_cons_of_mem _ hj)
  unfold Writable at h
  rw [shortNames]
  generalize e.all = xs at h
  induction xs with
  | nil => rfl
  | cons x xs ih =>
    have hx := h x List.mem_cons_self
    have hattributes : ∀ k ∈ x.attributes.keys, splitName k = none := by
      intro k hk
      obtain ⟨a, ha, rfl⟩ := List.mem_map.1 hk
      exact (hx.attributes a ha).name.splitName
    rw [List.foldl_cons, noteName, hx.tag.splitName, hkeys _ hattributes]
    exact ih fun y hy => h y (List.mem_cons_of_mem _ hy)

/-! ## The written text -/

theorem writtenName_eq {name : String} (h : IsPlainName name) :
    writtenName Table.empty name = name := by
  rw [writtenName, h.splitName]

theorem toList_writtenAttributes {attributes : List (String × String)}
    (h : ∀ a ∈ attributes, Token.IsPlainAttribute a) :
    (String.join (attributes.map fun (k, v) =>
      " " ++ writtenName Table.empty k ++ "=\"" ++ escapeAttribute v ++ "\"")).toList =
      attributes.flatMap Token.attributeChars := by
  induction attributes with
  | nil => rfl
  | cons a attributes ih =>
    have hname := writtenName_eq (h a List.mem_cons_self).name
    rw [List.map_cons, String.join_cons, String.toList_append,
      ih fun b hb => h b (List.mem_cons_of_mem _ hb), List.flatMap_cons]
    simp [hname, Token.attributeChars, escapeAttribute]

/-- The written form of an element without namespaces. -/
def chars (e : Element) : List Char := (writeElement Table.empty "" e).toList

theorem toList_writeElements (es : List Element) :
    (writeElements Table.empty es).toList = es.flatMap chars := by
  induction es with
  | nil => rfl
  | cons e es ih => rw [writeElements, String.toList_append, ih, List.flatMap_cons, chars]

theorem toList_render {e : Element} (h : e.Writable) : e.render.toList = e.chars := by
  rw [render, shortNames_eq_empty h, chars]
  simp [Table.empty]

/-- Whether an element is written as one tag. -/
def isBare (e : Element) : Bool := e.text.isNone && e.children.isEmpty

/-- The tags of an element with what stands between them. -/
theorem chars_eq {e : Element} (h : e.Plain) :
    e.chars = if e.isBare then Token.openingChars e.tag e.attributes.entries true
      else Token.openingChars e.tag e.attributes.entries false ++
        (e.content.toList.flatMap escapeTextChar ++
          (e.children.flatMap chars ++ Token.closingChars e.tag)) := by
  obtain ⟨tag, attributes, text, children, tail⟩ := e
  obtain ⟨htag, hattributes, -, htext, htail⟩ := h
  simp only at htag hattributes htext htail
  have hbare : (text.getD "" = "" ∧ children.isEmpty = true) ↔
      isBare ⟨tag, attributes, text, children, tail⟩ = true := by
    cases text with
    | none => simp [isBare]
    | some s => simp [isBare, (htext s rfl).1]
  subst htail
  rw [chars, writeElement]
  simp only [hbare, writtenName_eq htag, String.toList_append,
    toList_writtenAttributes hattributes]
  split
  · simp [Token.openingChars, Token.tagEnd, escapeText]
  · simp [Token.openingChars, Token.tagEnd, escapeText, Token.closingChars, toList_writeElements,
      content]

/-- Every written element begins with the name of its tag. -/
theorem exists_chars_eq_cons {e : Element} (h : e.Plain) :
    ∃ c s, e.chars = '<' :: c :: s ∧ Token.isNameStart c = true := by
  obtain ⟨c, rest, htag, hc, -⟩ := h.tag
  rw [chars_eq h]
  split
  · exact ⟨c, _, by rw [Token.openingChars, htag]; rfl, hc⟩
  · exact ⟨c, _, by rw [Token.openingChars, htag]; rfl, hc⟩

/-- After the text of an element stands the tag of a child or the closing tag. -/
theorem exists_inner_eq_cons {es : List Element} (h : ∀ c ∈ es, c.Writable) (tag : String)
    (rest : List Char) : ∃ s, es.flatMap chars ++ (Token.closingChars tag ++ rest) = '<' :: s := by
  cases es with
  | nil => exact ⟨_, rfl⟩
  | cons c cs =>
    obtain ⟨d, s, hd, -⟩ := exists_chars_eq_cons (writable_iff.1 (h c List.mem_cons_self)).1
    exact ⟨_, by rw [List.flatMap_cons, hd]; rfl⟩

/-! ## The tokens of an element -/

/-- The token of a text, if there is one. -/
def textTokens : Option String → List Token
  | none => []
  | some s => [.text s.toList]

mutual

/-- The tokens of a written element. -/
def tokens : Element → List Token
  | ⟨tag, attributes, text, children, _⟩ =>
    if text.isNone && children.isEmpty then [.opening tag attributes.entries true]
    else .opening tag attributes.entries false ::
      (textTokens text ++ (tokensOf children ++ [.closing tag]))

/-- The tokens of elements, one after the other. -/
def tokensOf : List Element → List Token
  | [] => []
  | e :: rest => tokens e ++ tokensOf rest

end

theorem tokensOf_eq_flatMap (es : List Element) : tokensOf es = es.flatMap tokens := by
  induction es with
  | nil => rfl
  | cons e es ih => rw [tokensOf, ih, List.flatMap_cons]

theorem tokens_eq (e : Element) :
    e.tokens = if e.isBare then [.opening e.tag e.attributes.entries true]
      else .opening e.tag e.attributes.entries false ::
        (textTokens e.text ++ (e.children.flatMap tokens ++ [.closing e.tag])) := by
  obtain ⟨tag, attributes, text, children, tail⟩ := e
  rw [tokens, tokensOf_eq_flatMap]
  rfl

/-- A text is read up to the tag that follows it. -/
theorem reads_text {e : Element} (h : e.Plain) {rest : List Char} {ts : List Token}
    (hrest : Token.Reads ('<' :: rest) ts) :
    Token.Reads (e.content.toList.flatMap escapeTextChar ++ '<' :: rest)
      (textTokens e.text ++ ts) := by
  unfold content
  cases htext : e.text with
  | none => exact hrest
  | some s =>
    obtain ⟨hne, hlegal⟩ := h.text s htext
    have hne : s.toList ≠ [] := by simpa using hne
    exact .text hlegal hne hrest

theorem reads_flatMap_chars {es : List Element}
    (h : ∀ e ∈ es, ∀ {rest ts}, Token.Reads rest ts → Token.Reads (e.chars ++ rest) (e.tokens ++ ts))
    {rest : List Char} {ts : List Token} (hrest : Token.Reads rest ts) :
    Token.Reads (es.flatMap chars ++ rest) (es.flatMap tokens ++ ts) := by
  induction es with
  | nil => exact hrest
  | cons e es ih =>
    rw [List.flatMap_cons, List.flatMap_cons, List.append_assoc, List.append_assoc]
    exact h e List.mem_cons_self (ih fun c hc => h c (List.mem_cons_of_mem _ hc))

/-- A written element is read as its tokens, whatever follows. -/
theorem reads_chars {e : Element} (h : e.Writable) {rest : List Char} {ts : List Token}
    (hrest : Token.Reads rest ts) : Token.Reads (e.chars ++ rest) (e.tokens ++ ts) := by
  induction e using induct generalizing rest ts with
  | h e ih =>
    obtain ⟨hplain, hchildren⟩ := writable_iff.1 h
    rw [chars_eq hplain, tokens_eq]
    split
    · exact .opening hplain.tag hplain.attributes true hrest
    · have hinner := reads_flatMap_chars (fun c hc => ih c hc (hchildren c hc))
        (Token.Reads.closing hplain.tag hrest)
      obtain ⟨s, hs⟩ := exists_inner_eq_cons hchildren e.tag rest
      rw [hs] at hinner
      have htext := reads_text hplain hinner
      have hopening := Token.Reads.opening hplain.tag hplain.attributes false htext
      rw [← hs] at hopening
      simpa using hopening

end Element

/-! ## Building the element again -/

theorem allDistinct_of_nodup {l : List String} (h : l.Nodup) : allDistinct l = true := by
  induction l with
  | nil => rfl
  | cons a l ih =>
    obtain ⟨ha, hl⟩ := List.nodup_cons.1 h
    simp [allDistinct, ha, ih hl]

/-- Attributes with plain names declare no namespace. -/
theorem declared_eq_nil {attributes : List (String × String)}
    (h : ∀ a ∈ attributes, Token.IsPlainAttribute a) : declared attributes = some [] := by
  unfold declared
  induction attributes with
  | nil => rfl
  | cons a attributes ih =>
    have ha := h a List.mem_cons_self
    rw [List.filterMapM_cons]
    simp only [ha.declares, ha.name.splitWritten, if_false, Option.bind_eq_bind, Option.bind_some]
    exact ih fun b hb => h b (List.mem_cons_of_mem _ hb)

theorem mapM_attributeName? {attributes : List (String × String)} (b : Bindings)
    (h : ∀ a ∈ attributes, Token.IsPlainAttribute a) :
    (attributes.mapM fun (k, v) => (attributeName? b k).map fun k => (k, v)) = some attributes := by
  induction attributes with
  | nil => rfl
  | cons a attributes ih =>
    have ha := h a List.mem_cons_self
    rw [List.mapM_cons, ih fun c hc => h c (List.mem_cons_of_mem _ hc)]
    simp only [attributeName?, ha.name.splitWritten]
    rfl

namespace OpenElement

/-- The tag of a plain element opens an element with its name and its attributes. -/
theorem ofTag?_plain {e : Element} (h : e.Plain) :
    ofTag? baseBindings e.tag e.attributes.entries =
      some ⟨e.tag, { tag := e.tag, attributes := e.attributes }, baseBindings⟩ := by
  have hdistinct : allDistinct (e.attributes.entries.map (·.1)) = true :=
    allDistinct_of_nodup h.distinct
  have hname : elementName? baseBindings e.tag = some e.tag := by
    rw [elementName?, h.tag.splitWritten]
    rfl
  have hfilter : e.attributes.entries.filter (!isDeclaringName ·.1) = e.attributes.entries := by
    rw [List.filter_eq_self]
    intro a ha
    rw [(h.attributes a ha).name.isDeclaringName (h.attributes a ha).declares]
    rfl
  have hattributes := mapM_attributeName? baseBindings h.attributes
  simp only [ofTag?, hdistinct, declared_eq_nil h.attributes, Option.bind_eq_bind,
    Option.bind_some, List.reverse_nil, List.nil_append, hname, hfilter, hattributes,
    Element.leaf, Table.ofList_entries h.distinct]
  rfl

/-- Children are put before those that stand there, in reverse. -/
theorem foldl_addChild (o : OpenElement) (es : List Element) :
    es.foldl addChild o =
      { o with element := { o.element with children := es.reverse ++ o.element.children } } := by
  induction es generalizing o with
  | nil =>
    obtain ⟨written, ⟨tag, attributes, text, children, tail⟩, bindings⟩ := o
    rfl
  | cons e es ih =>
    rw [List.foldl_cons, ih, List.reverse_cons, List.append_assoc]
    rfl

/-- The open element of a plain one, once its text is read. -/
def ofPlain (e : Element) : OpenElement :=
  ⟨e.tag, { tag := e.tag, attributes := e.attributes, text := e.text }, baseBindings⟩

/-- With all children added, the open element is the element. -/
theorem finish_foldl_addChild {e : Element} (h : e.Plain) :
    (e.children.foldl addChild (ofPlain e)).finish = e := by
  rw [foldl_addChild, finish]
  obtain ⟨tag, attributes, text, children, tail⟩ := e
  have htail : tail = none := h.tail
  subst htail
  simp [ofPlain]

end OpenElement

open OpenElement

/-- A text is added to the open element of its tag. -/
theorem build_textTokens {e : Element} (h : e.Plain) (stack : List OpenElement)
    (rest : List Token) :
    build (⟨e.tag, { tag := e.tag, attributes := e.attributes }, baseBindings⟩ :: stack)
        (Element.textTokens e.text ++ rest) = build (ofPlain e :: stack) rest := by
  unfold ofPlain
  cases htext : e.text with
  | none => rfl
  | some s =>
    have hne := (h.text s htext).1
    rw [Element.textTokens, List.singleton_append, build, String.ofList_toList, addText]
    simp [extend, hne]

theorem build_flatMap_tokens {es : List Element}
    (h : ∀ e ∈ es, ∀ o : OpenElement, o.bindings = baseBindings → ∀ stack rest,
      build (o :: stack) (e.tokens ++ rest) = build (o.addChild e :: stack) rest)
    (o : OpenElement) (ho : o.bindings = baseBindings) (stack : List OpenElement)
    (rest : List Token) :
    build (o :: stack) (es.flatMap Element.tokens ++ rest) =
      build (es.foldl addChild o :: stack) rest := by
  induction es generalizing o with
  | nil => rfl
  | cons e es ih =>
    rw [List.flatMap_cons, List.append_assoc, h e List.mem_cons_self o ho, List.foldl_cons]
    exact ih (fun c hc => h c (List.mem_cons_of_mem _ hc)) (o.addChild e) ho

/-- An element without text and children is finished as soon as it is open. -/
theorem finish_of_isBare {e : Element} (h : e.Plain) (hbare : e.isBare = true) :
    finish ⟨e.tag, { tag := e.tag, attributes := e.attributes }, baseBindings⟩ = e := by
  have hfinish := finish_foldl_addChild h
  simp only [Element.isBare, Bool.and_eq_true, Option.isNone_iff_eq_none,
    List.isEmpty_iff] at hbare
  rw [hbare.2, ofPlain, hbare.1] at hfinish
  exact hfinish

/-- The tokens of an element add it to the element that is open. -/
theorem build_tokens {e : Element} (h : e.Writable) (o : OpenElement)
    (ho : o.bindings = baseBindings) (stack : List OpenElement) (rest : List Token) :
    build (o :: stack) (e.tokens ++ rest) = build (o.addChild e :: stack) rest := by
  induction e using Element.induct generalizing o stack rest with
  | h e ih =>
    obtain ⟨hplain, hchildren⟩ := Element.writable_iff.1 h
    rw [Element.tokens_eq]
    split
    · rename_i hbare
      rw [List.singleton_append, build, ho, ofTag?_plain hplain]
      simp only [Option.bind_eq_bind, Option.bind_some, if_true, finish_of_isBare hplain hbare]
    · have hopen : build (o :: stack) (Token.opening e.tag e.attributes.entries false ::
          (Element.textTokens e.text ++ (e.children.flatMap Element.tokens ++
            (Token.closing e.tag :: rest)))) = build (o.addChild e :: stack) rest := by
        rw [build, ho, ofTag?_plain hplain]
        simp only [Option.bind_eq_bind, Option.bind_some, Bool.false_eq_true, if_false]
        rw [build_textTokens hplain, build_flatMap_tokens (fun c hc => ih c hc (hchildren c hc))
          (ofPlain e) rfl, build, if_pos]
        · simp only [finish_foldl_addChild hplain]
        · rw [foldl_addChild]
          rfl
      simpa using hopen

/-- The tokens of an element alone build it. -/
theorem build_root {e : Element} (h : e.Writable) : build [] e.tokens = some e := by
  obtain ⟨hplain, hchildren⟩ := Element.writable_iff.1 h
  rw [Element.tokens_eq]
  split
  · rename_i hbare
    rw [build, ofTag?_plain hplain]
    simp only [Option.bind_eq_bind, Option.bind_some, isTrailer, if_true]
    exact congrArg some (finish_of_isBare hplain hbare)
  · rw [build, ofTag?_plain hplain]
    simp only [Option.bind_eq_bind, Option.bind_some, Bool.false_eq_true, if_false]
    rw [build_textTokens hplain, build_flatMap_tokens
      (fun c hc o ho stack rest => build_tokens (hchildren c hc) o ho stack rest) (ofPlain e) rfl,
      build, if_pos]
    · simp only [isTrailer, if_true, finish_foldl_addChild hplain]
    · rw [foldl_addChild]
      rfl

/-! ## Line ends -/

/-- A text with its line ends unified. -/
def unifiedText (s : String) : String := String.ofList (Text.unifyLineEnds s.toList)

theorem unifiedText_ne_empty {s : String} (h : s ≠ "") : unifiedText s ≠ "" := by
  intro hempty
  apply h
  rw [unifiedText, ← String.toList_inj, String.toList_ofList] at hempty
  rw [← String.toList_inj]
  unfold Text.unifyLineEnds at hempty
  split at hempty
  · assumption
  · cases hempty
  · cases hempty
  · cases hempty

theorem isLegal_unifiedText {s : String} (h : IsLegal s) : IsLegal (unifiedText s) := by
  intro c hc
  rw [unifiedText, String.toList_ofList] at hc
  rcases Text.mem_unifyLineEnds hc with rfl | hc
  · decide
  · exact h c hc

/-- Unifying comes before or after escaping. -/
theorem unifyLineEnds_flatMap_escapeTextChar (s : List Char) :
    Text.unifyLineEnds (s.flatMap escapeTextChar) =
      (Text.unifyLineEnds s).flatMap escapeTextChar := by
  have hcr : escapeTextChar '\r' = ['\r'] := by decide
  have hlf : escapeTextChar '\n' = ['\n'] := by decide
  fun_induction Text.unifyLineEnds s with
  | case1 => rfl
  | case2 rest ih =>
    rw [List.flatMap_cons, List.flatMap_cons, List.flatMap_cons, hcr, hlf, ← ih]
    rfl
  | case3 rest hrest ih =>
    rw [List.flatMap_cons, List.flatMap_cons, hcr, hlf, ← ih, List.singleton_append,
      List.singleton_append, Text.unifyLineEnds]
    -- What follows a lone carriage return is escaped to no line feed either.
    intro t ht
    cases rest with
    | nil => cases ht
    | cons d rest =>
      rw [List.flatMap_cons] at ht
      rcases Token.escapeTextChar_cases d with ⟨hd, -⟩ | ⟨xs, hd, -⟩
      · rw [hd] at ht
        exact hrest rest (by rw [(List.cons.inj ht).1])
      · rw [hd] at ht
        exact absurd (List.cons.inj ht).1 (by decide)
  | case4 c rest _ hc ih =>
    have hplain : '\r' ∉ escapeTextChar c := fun h => hc ((Token.mem_escapeTextChar h).2.2 rfl)
    rw [List.flatMap_cons, List.flatMap_cons, ← ih, Text.unifyLineEnds_append_of_not_mem hplain]

namespace Token

/-- A tag is written without carriage returns. -/
theorem not_mem_openingChars {name : String} (hname : IsPlainName name)
    {attributes : List (String × String)} (h : ∀ a ∈ attributes, IsPlainAttribute a)
    (closed : Bool) : '\r' ∉ openingChars name attributes closed := by
  have hattributes : '\r' ∉ attributes.flatMap attributeChars := by
    intro hmem
    obtain ⟨a, ha, hmem⟩ := List.mem_flatMap.1 hmem
    have hkey : '\r' ∉ a.1.toList := (h a ha).name.not_mem (by decide)
    have hvalue : '\r' ∉ a.2.toList.flatMap escapeAttributeChar := by
      intro hvalue
      obtain ⟨c, -, hc⟩ := List.mem_flatMap.1 hvalue
      exact (mem_escapeAttributeChar hc).2 rfl
    simp [attributeChars, hkey, hvalue] at hmem
  have hend : '\r' ∉ tagEnd closed := by cases closed <;> decide
  have hplain : '\r' ∉ name.toList := hname.not_mem (by decide)
  simp [openingChars, hplain, hattributes, hend]

theorem not_mem_closingChars {name : String} (hname : IsPlainName name) :
    '\r' ∉ closingChars name := by
  have hplain : '\r' ∉ name.toList := hname.not_mem (by decide)
  simp [closingChars, hplain]

end Token

namespace Element

mutual

/-- The element with the line ends of all its texts unified. -/
def unified : Element → Element
  | ⟨tag, attributes, text, children, tail⟩ =>
    ⟨tag, attributes, text.map unifiedText, unifiedOf children, tail⟩

/-- Elements with the line ends of all their texts unified. -/
def unifiedOf : List Element → List Element
  | [] => []
  | e :: rest => unified e :: unifiedOf rest

end

theorem unifiedOf_eq_map (es : List Element) : unifiedOf es = es.map unified := by
  induction es with
  | nil => rfl
  | cons e es ih => rw [unifiedOf, ih, List.map_cons]

@[simp] theorem tag_unified (e : Element) : e.unified.tag = e.tag := by cases e; rfl

@[simp] theorem attributes_unified (e : Element) : e.unified.attributes = e.attributes := by
  cases e; rfl

@[simp] theorem text_unified (e : Element) : e.unified.text = e.text.map unifiedText := by
  cases e; rfl

@[simp] theorem tail_unified (e : Element) : e.unified.tail = e.tail := by cases e; rfl

@[simp] theorem children_unified (e : Element) : e.unified.children = e.children.map unified := by
  obtain ⟨tag, attributes, text, children, tail⟩ := e
  rw [unified, unifiedOf_eq_map]

theorem unified_unified (e : Element) : e.unified.unified = e.unified := by
  have htext : ∀ s, unifiedText (unifiedText s) = unifiedText s := by
    intro s
    rw [unifiedText, unifiedText, String.toList_ofList,
      Text.unifyLineEnds_of_not_mem (Text.not_mem_unifyLineEnds _)]
  induction e using induct with
  | h e ih =>
    obtain ⟨tag, attributes, text, children, tail⟩ := e
    have hchildren : (children.map unified).map unified = children.map unified := by
      rw [List.map_map]
      exact List.map_congr_left fun c hc => ih c hc
    have htexts : (text.map unifiedText).map unifiedText = text.map unifiedText := by
      cases text with
      | none => rfl
      | some s => exact congrArg some (htext s)
    rw [unified, unifiedOf_eq_map, unified, unifiedOf_eq_map, hchildren, htexts]

theorem attribute?_unified (e : Element) (k : String) :
    e.unified.attribute? k = e.attribute? k := by
  rw [attribute?, attributes_unified, attribute?]

theorem attributeD_unified (e : Element) (k d : String) :
    e.unified.attributeD k d = e.attributeD k d := by
  rw [attributeD, attribute?_unified, attributeD]

theorem child?_unified (e : Element) (tag : String) :
    e.unified.child? tag = (e.child? tag).map unified := by
  rw [child?, children_unified, List.find?_map, child?]
  simp only [Function.comp_def, tag_unified]

theorem all_unified (e : Element) : e.unified.all = e.all.map unified := by
  induction e using induct with
  | h e ih =>
    have hbelow : (e.children.map unified).flatMap all = (e.children.flatMap all).map unified := by
      rw [List.flatMap_map, List.map_flatMap, List.flatMap_def, List.flatMap_def]
      exact congrArg List.flatten (List.map_congr_left ih)
    rw [all_eq_cons, all_eq_cons, descendants, descendants, allOf_eq_flatMap, allOf_eq_flatMap,
      children_unified, hbelow, List.map_cons]

theorem descendants_unified (e : Element) :
    e.unified.descendants = e.descendants.map unified := by
  have h := all_unified e
  rw [all_eq_cons, all_eq_cons, List.map_cons] at h
  exact (List.cons.inj h).2

theorem descendantsNamed_unified (e : Element) (tag : String) :
    e.unified.descendantsNamed tag = (e.descendantsNamed tag).map unified := by
  rw [descendantsNamed, descendants_unified, List.filter_map, descendantsNamed]
  simp only [Function.comp_def, tag_unified]

theorem descendant?_unified (e : Element) (tag : String) :
    e.unified.descendant? tag = (e.descendant? tag).map unified := by
  rw [descendant?, descendants_unified, List.find?_map, descendant?]
  simp only [Function.comp_def, tag_unified]

theorem Plain.unified {e : Element} (h : e.Plain) : e.unified.Plain where
  tag := by rw [tag_unified]; exact h.tag
  attributes := by rw [attributes_unified]; exact h.attributes
  distinct := by rw [attributes_unified]; exact h.distinct
  text := by
    intro s hs
    rw [text_unified] at hs
    obtain ⟨t, ht, rfl⟩ := Option.map_eq_some_iff.1 hs
    obtain ⟨hne, hlegal⟩ := h.text t ht
    exact ⟨unifiedText_ne_empty hne, isLegal_unifiedText hlegal⟩
  tail := by rw [tail_unified]; exact h.tail

theorem Writable.unified {e : Element} (h : e.Writable) : e.unified.Writable := by
  induction e using induct with
  | h e ih =>
    obtain ⟨hplain, hchildren⟩ := writable_iff.1 h
    refine writable_iff.2 ⟨hplain.unified, ?_⟩
    rw [children_unified]
    intro c hc
    obtain ⟨d, hd, rfl⟩ := List.mem_map.1 hc
    exact ih d hd (hchildren d hd)

theorem toList_content_unified (e : Element) :
    e.unified.content.toList = Text.unifyLineEnds e.content.toList := by
  rw [content, content, text_unified]
  cases e.text with
  | none => rfl
  | some s => exact String.toList_ofList

theorem isBare_unified (e : Element) : e.unified.isBare = e.isBare := by
  rw [isBare, isBare, text_unified, children_unified, Option.isNone_map, List.isEmpty_map]

theorem unifyLineEnds_flatMap_chars {es : List Element}
    (h : ∀ e ∈ es, ∀ rest, Text.unifyLineEnds (e.chars ++ rest) =
      e.unified.chars ++ Text.unifyLineEnds rest) (rest : List Char) :
    Text.unifyLineEnds (es.flatMap chars ++ rest) =
      (es.map Element.unified).flatMap chars ++ Text.unifyLineEnds rest := by
  induction es with
  | nil => rfl
  | cons e es ih =>
    rw [List.flatMap_cons, List.append_assoc, h e List.mem_cons_self,
      ih fun c hc => h c (List.mem_cons_of_mem _ hc), List.map_cons, List.flatMap_cons,
      List.append_assoc]

/-- The line ends of a written element are those of its texts. -/
theorem unifyLineEnds_chars {e : Element} (h : e.Writable) (rest : List Char) :
    Text.unifyLineEnds (e.chars ++ rest) = e.unified.chars ++ Text.unifyLineEnds rest := by
  induction e using induct generalizing rest with
  | h e ih =>
    obtain ⟨hplain, hchildren⟩ := writable_iff.1 h
    have hopening := Token.not_mem_openingChars hplain.tag hplain.attributes
    have hclosing := Token.not_mem_closingChars hplain.tag
    rw [chars_eq hplain, chars_eq hplain.unified, isBare_unified, tag_unified, attributes_unified,
      children_unified, toList_content_unified]
    split
    · exact Text.unifyLineEnds_append_of_not_mem (hopening true) rest
    · -- The text ends where a tag begins, so its last line end is unified on its own.
      have hinner := unifyLineEnds_flatMap_chars (fun c hc => ih c hc (hchildren c hc))
        (Token.closingChars e.tag ++ rest)
      have hhead : (e.children.flatMap chars ++ (Token.closingChars e.tag ++ rest)).head? ≠
          some '\n' := by
        obtain ⟨s, hs⟩ := exists_inner_eq_cons hchildren e.tag rest
        rw [hs, List.head?_cons]
        decide
      rw [Text.unifyLineEnds_append_of_not_mem hclosing] at hinner
      rw [List.append_assoc, Text.unifyLineEnds_append_of_not_mem (hopening false),
        List.append_assoc, Text.unifyLineEnds_append, unifyLineEnds_flatMap_escapeTextChar]
      · simp only [List.append_assoc, hinner]
      · rwa [List.append_assoc]

/-! ## Reading undoes writing -/

/-- Nothing stands before the first tag of a written element. -/
theorem skipProlog_chars {e : Element} (h : e.Plain) :
    (Token.skipDeclaration e.chars >>= fun s => Token.skipProlog s.length s) = some e.chars := by
  obtain ⟨c, s, hchars, hc⟩ := exists_chars_eq_cons h
  have hquestion : c ≠ '?' := by rintro rfl; revert hc; decide
  have hbang : c ≠ '!' := by rintro rfl; revert hc; decide
  have hdeclaration : Token.skipDeclaration ('<' :: c :: s) = some ('<' :: c :: s) := by
    have hbom : ¬ ('<' :: c :: s).head? = some '\uFEFF' := by
      rw [List.head?_cons]
      decide
    have hbegins : Token.begins "<?xml" ('<' :: c :: s) = false := by
      rw [Bool.eq_false_iff]
      intro hbegins
      rw [Token.begins, List.isPrefixOf_iff_prefix] at hbegins
      obtain ⟨t, ht⟩ := hbegins
      simp at ht
      exact hquestion ht.1.symm
    simp only [Token.skipDeclaration, hbom, if_false, hbegins, Bool.false_and, Bool.false_eq_true]
  rw [hchars, hdeclaration]
  simp only [Option.bind_eq_bind, Option.bind_some]
  rw [List.length_cons, Token.skipProlog]
  have hskip : Token.skipSpace ('<' :: c :: s) = '<' :: c :: s := rfl
  rw [hskip]
  split
  · rename_i heq
    simp only [List.cons.injEq] at heq
    exact absurd heq.2.1 hquestion
  · rename_i heq
    simp only [List.cons.injEq] at heq
    exact absurd heq.2.1 hbang
  · rename_i heq
    simp only [List.cons.injEq] at heq
    exact absurd heq.2.1 hbang
  · rfl

/-- From the written form of an element the element is read, with its line ends unified. -/
theorem parse?_ofList_chars {e : Element} (h : e.Writable) :
    parse? (String.ofList e.chars) = some e.unified := by
  have hunified := h.unified
  have hlines : Text.unifyLineEnds e.chars = e.unified.chars := by
    have := unifyLineEnds_chars h []
    rwa [List.append_nil, Text.unifyLineEnds, List.append_nil] at this
  have hprolog := skipProlog_chars (writable_iff.1 hunified).1
  have hreads : Token.Reads e.unified.chars e.unified.tokens := by
    have := reads_chars hunified .done
    rwa [List.append_nil, List.append_nil] at this
  have htokens : Token.ofDocument? (String.ofList e.chars) = some e.unified.tokens := by
    rw [Token.ofDocument?, String.toList_ofList, hlines]
    simp only [Option.bind_eq_bind] at hprolog ⊢
    rw [← Option.bind_assoc, hprolog, Option.bind_some]
    exact Token.readAll_of_reads hreads (Nat.le_succ _)
  rw [parse?, htokens]
  exact build_root hunified

/-- Reading undoes writing, up to line ends. -/
theorem parse?_render {e : Element} (h : e.Writable) : parse? e.render = some e.unified := by
  rw [← parse?_ofList_chars h, ← toList_render h, String.ofList_toList]

end Element

end ControlLogic.Markup
