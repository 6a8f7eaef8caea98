import ControlLogic.Exchange.Document
import ControlLogic.Proofs.Exchange.Opener
import ControlLogic.Proofs.Markup.RoundTrip
import Mathlib.Data.List.Chain

/-!
# Written documents are opened

A document is read after its character sections have been made elements.  What the writer puts
out has no character section, since a `<` that opens no tag is escaped.  So a file with a written
element holds this element, with its line ends unified: `holdsDocument_render`.

To open a file as a `Document` is one way to open it as the readers rely on:
`Document.documented_opener`.
-/

namespace ControlLogic.Exchange

open Markup

/-! ## Texts without character sections -/

/-- No `<` stands before a `!`, as it does where a character section begins. -/
def NoSection (s : List Char) : Prop := s.IsChain fun a b => a = '<' → b ≠ '!'

theorem NoSection.append {u t : List Char} (hu : '<' ∉ u) (ht : NoSection t) :
    NoSection (u ++ t) := by
  induction u with
  | nil => exact ht
  | cons c u ih =>
    rw [List.mem_cons, not_or] at hu
    refine List.IsChain.cons (ih hu.2) fun d _ hc => ?_
    exact absurd hc.symm hu.1

/-- A tag does not begin a character section. -/
theorem NoSection.tag {c : Char} {u t : List Char} (hc : c ≠ '!') (hu : '<' ∉ c :: u)
    (ht : NoSection t) : NoSection ('<' :: (c :: u ++ t)) := by
  refine List.IsChain.cons (ht.append hu) fun d hd _ => ?_
  rw [List.cons_append, List.head?_cons, Option.mem_some_iff] at hd
  exact hd ▸ hc

theorem NoSection.not_infix {s : List Char} (h : NoSection s) : ¬ "<![CDATA[".toList <:+: s := by
  intro hsection
  have hchain : NoSection "<![CDATA[".toList := List.IsChain.infix h hsection
  exact (List.isChain_cons_cons.1 hchain).1 rfl rfl

theorem not_mem_name {name : String} (h : IsPlainName name) : '<' ∉ name.toList :=
  h.not_mem (by decide)

theorem not_mem_attributeChars {attributes : List (String × String)}
    (h : ∀ a ∈ attributes, Token.IsPlainAttribute a) :
    '<' ∉ attributes.flatMap Token.attributeChars := by
  intro hmem
  obtain ⟨a, ha, hmem⟩ := List.mem_flatMap.1 hmem
  have hvalue : '<' ∉ a.2.toList.flatMap escapeAttributeChar := by
    intro hvalue
    obtain ⟨c, -, hc⟩ := List.mem_flatMap.1 hvalue
    exact (Token.mem_escapeAttributeChar hc).1 rfl
  simp [Token.attributeChars, not_mem_name (h a ha).name, hvalue] at hmem

theorem NoSection.opening {name : String} (hname : IsPlainName name)
    {attributes : List (String × String)} (h : ∀ a ∈ attributes, Token.IsPlainAttribute a)
    (closed : Bool) {t : List Char} (ht : NoSection t) :
    NoSection (Token.openingChars name attributes closed ++ t) := by
  obtain ⟨c, rest, hchars, hc, -⟩ := id hname
  have hbang : c ≠ '!' := by rintro rfl; revert hc; decide
  have hmem : '<' ∉ name.toList ++ (attributes.flatMap Token.attributeChars ++
      Token.tagEnd closed) := by
    have hend : '<' ∉ Token.tagEnd closed := by cases closed <;> decide
    simp only [List.mem_append, not_or]
    exact ⟨not_mem_name hname, not_mem_attributeChars h, hend⟩
  rw [hchars, List.cons_append] at hmem
  rw [Token.openingChars, hchars]
  exact NoSection.tag hbang hmem ht

theorem NoSection.closing {name : String} (hname : IsPlainName name) {t : List Char}
    (ht : NoSection t) : NoSection (Token.closingChars name ++ t) := by
  have hmem : '<' ∉ '/' :: (name.toList ++ ['>']) := by
    simp [not_mem_name hname]
  exact NoSection.tag (by decide) hmem ht

theorem NoSection.flatMap_chars {es : List Element}
    (h : ∀ e ∈ es, ∀ t, NoSection t → NoSection (e.chars ++ t)) {t : List Char}
    (ht : NoSection t) : NoSection (es.flatMap Element.chars ++ t) := by
  induction es with
  | nil => exact ht
  | cons e es ih =>
    rw [List.flatMap_cons, List.append_assoc]
    exact h e List.mem_cons_self _ (ih fun c hc => h c (List.mem_cons_of_mem _ hc))

/-- A written element has no character section. -/
theorem noSection_chars {e : Element} (h : e.Writable) {t : List Char} (ht : NoSection t) :
    NoSection (e.chars ++ t) := by
  induction e using Element.induct generalizing t with
  | h e ih =>
    obtain ⟨hplain, hchildren⟩ := Element.writable_iff.1 h
    have hopening := fun closed t (ht : NoSection t) =>
      NoSection.opening hplain.tag hplain.attributes closed ht
    rw [Element.chars_eq hplain]
    split
    · exact hopening true t ht
    · have htext : '<' ∉ e.content.toList.flatMap escapeTextChar := by
        intro hmem
        obtain ⟨c, -, hc⟩ := List.mem_flatMap.1 hmem
        exact (Token.mem_escapeTextChar hc).1 rfl
      have hinner := NoSection.flatMap_chars (fun c hc t => ih c hc (hchildren c hc))
        (NoSection.closing hplain.tag ht)
      have hwhole := hopening false _ (hinner.append htext)
      simpa using hwhole

/-- A file with the written form of an element holds this element. -/
theorem holdsDocument_render {files : Files} {path : String} {root : Element}
    (hfile : files.content path = .ok (.text root.render)) (h : root.Writable)
    (htag : root.tag = "RSLogix5000Content") : HoldsDocument files path root.unified := by
  have hread : files.read path = .ok (unifiedText root.render) := by
    rw [Files.read, hfile]
    rfl
  have hchars : (unifiedText root.render).toList = root.unified.chars := by
    have hlines := Element.unifyLineEnds_chars h []
    rw [List.append_nil, Text.unifyLineEnds, List.append_nil] at hlines
    rw [unifiedText, String.toList_ofList, Element.toList_render h, hlines]
  have hsection : NoSection root.unified.chars := by
    have := noSection_chars h.unified List.IsChain.nil
    rwa [List.append_nil] at this
  have hparse : Element.parse? (unifiedText root.render) = some root.unified := by
    rw [← String.ofList_toList (s := unifiedText root.render), hchars,
      Element.parse?_ofList_chars h.unified, Element.unified_unified]
  rw [← hchars] at hsection
  exact ⟨⟨_, hread, hsection.not_infix, hparse⟩, by rw [Element.tag_unified, htag]⟩

/-! ## The opener of documents -/

/-- A text without character sections stays as it is. -/
theorem wrapSections_eq {s : List Char} (h : ¬ "<![CDATA[".toList <:+: s) : wrapSections s = s := by
  rw [← Text.Chars.contains_iff_infix, Bool.not_eq_true] at h
  have hnone := Text.Chars.breakOn?_eq_none_iff.2 h
  unfold wrapSections
  split
  · rfl
  · rename_i hsome
    rw [hnone] at hsome
    cases hsome

/-- The document that a file holds is loaded from it. -/
theorem load_of_holdsDocument {files : Files} {path : String} {root controller : Element}
    (h : HoldsDocument files path root) (hcontroller : root.child? "Controller" = some controller) :
    Document.load files path = .ok ⟨root.attribute? "CurrentLanguage", controller⟩ := by
  obtain ⟨text, hread, hsection, hparse⟩ := h.text
  rw [Document.load, hread]
  change Document.parse text = _
  rw [Document.parse, wrapSections_eq hsection, String.ofList_toList, hparse]
  simp only [h.tag, ne_eq, not_true_eq_false, if_false, hcontroller]

theorem required_eq_ok_iff {e : Element} {k v : String} :
    required e.attributes k = .ok v ↔ e.attribute? k = some v := by
  rw [required, Element.attribute?]
  cases e.attributes.get? k <;> simp

theorem mapM_required_name {cs : List Element} {names : List String} :
    (cs.mapM fun c => required c.attributes "Name") = .ok names ↔
      cs.map (·.attribute? "Name") = names.map some := by
  induction cs generalizing names with
  | nil =>
    rw [List.mapM_nil, List.map_nil, eq_comm (b := names.map some), List.map_eq_nil_iff]
    exact ⟨fun h => by cases h; rfl, fun h => h ▸ rfl⟩
  | cons c cs ih =>
    rw [List.mapM_cons, List.map_cons]
    constructor
    · intro h
      obtain ⟨name, hname, h⟩ := exists_of_bind_eq_ok h
      obtain ⟨rest, hrest, h⟩ := exists_of_bind_eq_ok h
      cases h
      rw [List.map_cons, required_eq_ok_iff.1 hname, ih.1 hrest]
    · intro h
      cases names with
      | nil => cases h
      | cons name rest =>
        rw [List.map_cons, List.cons.injEq] at h
        rw [required_eq_ok_iff.2 h.1, ih.2 h.2]
        rfl

/-- The directory of a section lists its children. -/
theorem lists_directory {α : Type} (make : Element → Except Fault α) (parent : Option Element) :
    (Document.directory make parent).Lists parent fun c r => r = make c where
  absent := by
    rintro rfl
    exact ⟨_, rfl⟩
  names := by
    rintro s names rfl
    exact mapM_required_name
  get := by
    rintro s name c rfl hfind hquote
    simp only [Document.directory, hquote, hfind]
    rfl
  quoted := by
    intro name hquote
    cases parent with
    | none => exact ⟨_, rfl⟩
    | some s => exact ⟨.badName, by simp only [Document.directory, hquote, if_true]⟩

theorem Directory.Lists.mono {α : Type} {d : Directory α} {parent : Option Element}
    {Made Made' : Element → Except Fault α → Prop} (h : d.Lists parent Made)
    (hmade : ∀ c r, Made c r → Made' c r) : d.Lists parent Made' where
  absent := h.absent
  names := h.names
  get s name c hs hfind hquote := hmade c _ (h.get s name c hs hfind hquote)
  quoted := h.quoted

theorem isSome_dataElement? (tag : Element) :
    (Document.dataElement? tag).isSome = true ↔ HasData tag := by
  rw [Document.dataElement?, List.isSome_head?, Ne, List.flatMap_eq_nil_iff]
  simp only [List.mem_filter, beq_iff_eq, not_forall, exists_prop, HasData, and_assoc, Ne]

theorem TagMade.of_error {e : Element} {f : Fault}
    (h : ∀ kind, e.attribute? "TagType" = some kind → kind ≠ "Alias" ∧ ¬ HasData e) :
    TagMade e (.error f) where
  exists_ok_iff := by
    refine ⟨?_, ?_⟩
    · rintro ⟨t, ht⟩
      cases ht
    · rintro ⟨kind, hkind, hcases⟩
      exact (hcases.elim (h kind hkind).1 (h kind hkind).2).elim
  dataType t type ht := by cases ht

/-- A tag of a document is made as tags are. -/
theorem tagMade_tagSource (language : Option String) (e : Element) :
    TagMade e (Document.tagSource language e) := by
  have hrequired : Document.tagSource language e = (required e.attributes "TagType" >>= _) := rfl
  cases hkind : e.attribute? "TagType" with
  | none =>
    have hget : e.attributes.get? "TagType" = none := hkind
    rw [hrequired, required, hget]
    refine .of_error fun kind h => ?_
    rw [hkind] at h
    cases h
  | some kind =>
    rw [hrequired, required_eq_ok_iff.2 hkind]
    change TagMade e (if kind = "Alias" then _ else _)
    by_cases halias : kind = "Alias"
    · rw [if_pos halias]
      refine ⟨⟨fun _ => ⟨kind, hkind, .inl halias⟩, fun _ => ⟨_, rfl⟩⟩, fun t type _ hno => ?_⟩
      exact absurd (halias ▸ hkind) hno
    · rw [if_neg halias]
      cases hdata : Document.dataElement? e with
      | none =>
        refine .of_error fun kind' h => ?_
        rw [hkind] at h
        cases h
        rw [← isSome_dataElement?, hdata]
        exact ⟨halias, Bool.false_ne_true⟩
      | some data =>
        have hhas : HasData e := by
          rw [← isSome_dataElement?, hdata]
          rfl
        refine ⟨⟨fun _ => ⟨kind, hkind, .inr hhas⟩, fun _ => ⟨_, rfl⟩⟩, fun t type ht _ htype => ?_⟩
        cases ht
        simp only [htype]

theorem shows_scopeSource (language : Option String) (e : Element) :
    (Document.scopeSource language e).Shows e := by
  refine ⟨_, (lists_directory (Document.tagSource language) (e.child? "Tags")).mono ?_, rfl⟩
  rintro c r rfl
  exact tagMade_tagSource language c

/-- A document is a source that shows its controller. -/
theorem Document.shows_source (d : Document) : d.source.Shows d.controller where
  controller := shows_scopeSource d.language d.controller
  programs := by
    refine ⟨_, rfl, (lists_directory _ (d.controller.child? "Programs")).mono ?_⟩
    rintro c r rfl
    exact ⟨_, rfl, shows_scopeSource d.language c⟩

/-- To open files as documents is a documented way to open them. -/
theorem Document.documented_opener : Opener.Documented Document.opener where
  opens {_ _ root controller} h hcontroller := by
    refine ⟨_, ?_, Document.shows_source ⟨root.attribute? "CurrentLanguage", controller⟩⟩
    rw [Document.opener, load_of_holdsDocument h hcontroller]
    rfl

end ControlLogic.Exchange
