import ControlLogic.Markup.Token
import ControlLogic.Markup.Writer

/-!
# Written tags and texts are read back

The writer puts out opening tags, closing tags and escaped text.  This file says that the
reader of tokens takes each of these for what it is, whatever follows it.

* Names.  `IsPlainName` holds of the names that are written as they are, and `readName_append`
  reads such a name up to a character that ends it.
* Escaped text.  `readText_escaped` and `readValue_escaped` undo the escaping of a text and of
  the value of an attribute, character by character.
* Tags.  `readAttributes_written` reads the attributes of a tag with its end, and
  `read_opening`, `read_closing` and `read_text` read one token each.
* Documents.  `Reads` is the reading of tokens without its fuel; `readAll_of_reads` says that
  the length of the text is fuel enough.
-/

namespace ControlLogic.Markup

/-! ## Characters and names -/

/-- A text that may stand in a document. -/
def IsLegal (s : String) : Prop := ∀ c ∈ s.toList, Token.isAllowed c = true

/-- A name without a namespace, as it may be written. -/
def IsPlainName (name : String) : Prop :=
  ∃ c rest, name.toList = c :: rest ∧ Token.isNameStart c = true ∧
    ∀ d ∈ rest, Token.isNameChar d = true

-- Named, as a search may also find the instance that goes through every character there is.
instance (s : String) : Decidable (IsLegal s) := List.decidableBAll _ s.toList

theorem Token.isNameChar_of_isNameStart {c : Char} (h : isNameStart c = true) :
    isNameChar c = true := by
  simp [isNameChar, h]

theorem IsPlainName.isNameChar {name : String} (h : IsPlainName name) :
    ∀ c ∈ name.toList, Token.isNameChar c = true := by
  obtain ⟨c, rest, hname, hc, hrest⟩ := h
  rw [hname]
  intro d hd
  rcases List.mem_cons.1 hd with rfl | hd
  · exact Token.isNameChar_of_isNameStart hc
  · exact hrest d hd

/-- A name is plain by its first character and all of them. -/
theorem isPlainName_iff {name : String} :
    (name.toList.head?.any Token.isNameStart && name.toList.all Token.isNameChar) = true ↔
      IsPlainName name := by
  rw [Bool.and_eq_true, List.all_eq_true]
  constructor
  · rintro ⟨hstart, hall⟩
    cases hname : name.toList with
    | nil => simp [hname] at hstart
    | cons c rest =>
      rw [hname] at hstart hall
      exact ⟨c, rest, hname, hstart, fun d hd => hall d (List.mem_cons_of_mem _ hd)⟩
  · intro h
    refine ⟨?_, h.isNameChar⟩
    obtain ⟨c, rest, hname, hc, -⟩ := h
    rw [hname]
    exact hc

instance (name : String) : Decidable (IsPlainName name) := decidable_of_iff _ isPlainName_iff

namespace Token

/-- The characters that end a name. -/
def endsName (c : Char) : Bool := !isNameChar c && c ≠ ':'

/-- A plain name is read up to a character that ends it. -/
theorem readName_append {name : String} (h : IsPlainName name) (stop : Char)
    (hend : endsName stop = true) (rest : List Char) :
    readName (name.toList ++ stop :: rest) = some (name, stop :: rest) := by
  obtain ⟨c, more, hname, hc, hmore⟩ := h
  have hends : isNameChar stop = false ∧ stop ≠ ':' := by simpa [endsName] using hend
  have htake : (more ++ stop :: rest).takeWhile isNameChar = more := by
    rw [List.takeWhile_append_of_pos hmore, List.takeWhile_cons, hends.1]
    simp
  have hdrop : (more ++ stop :: rest).dropWhile isNameChar = stop :: rest := by
    rw [List.dropWhile_append_of_pos hmore, List.dropWhile_cons, hends.1]
    simp
  have hplain : readPlainName (name.toList ++ stop :: rest) = some (name.toList, stop :: rest) := by
    rw [hname, List.cons_append, readPlainName, if_pos hc, htake, hdrop]
  rw [readName, hplain]
  simp only [Option.bind_eq_bind, Option.bind_some]
  split
  · rename_i rest' heq
    exact absurd (List.cons.inj heq).1 hends.2
  · rw [String.ofList_toList]

/-- A plain name does not begin with a character that ends one. -/
theorem skipSpace_append {name : String} (h : IsPlainName name) (rest : List Char) :
    skipSpace (name.toList ++ rest) = name.toList ++ rest := by
  obtain ⟨c, more, hname, hc, -⟩ := h
  have hspace : isSpace c = false := by
    rw [Bool.eq_false_iff]
    intro hs
    simp only [isSpace, Bool.or_eq_true, decide_eq_true_eq] at hs
    rcases hs with ((rfl | rfl) | rfl) | rfl <;> revert hc <;> decide
  rw [skipSpace, hname, List.cons_append, List.dropWhile_cons, hspace]
  simp

/-! ## Escaped text -/

theorem readText_skip (u v : List Char) : readText u.length (u ++ v) = readText 0 v := by
  induction u with
  | nil => rfl
  | cons c u ih => rw [List.cons_append, List.length_cons, readText, ih]

theorem readValue_skip (q : Char) (u v : List Char) :
    readValue q u.length (u ++ v) = readValue q 0 v := by
  induction u with
  | nil => rfl
  | cons c u ih => rw [List.cons_append, List.length_cons, readValue, ih]

theorem takeWhile_reference {body : List Char} (hbody : ';' ∉ body) (rest : List Char) :
    (body ++ ';' :: rest).takeWhile (fun c => decide (c ≠ ';')) = body := by
  have hall : ∀ c ∈ body, decide (c ≠ ';') = true := by
    intro c hc
    rw [decide_eq_true_eq]
    rintro rfl
    exact hbody hc
  rw [List.takeWhile_append_of_pos hall, List.takeWhile_cons]
  simp

/-- A reference in a text is the character it stands for. -/
theorem readText_reference (body : List Char) {r : Char} (hbody : ';' ∉ body)
    (hr : referent? body = some r) (rest : List Char) :
    readText 0 ('&' :: (body ++ ';' :: rest)) =
      (readText 0 rest).map fun (a, b) => (r :: a, b) := by
  have hskip : readText (body.length + 1) (body ++ ';' :: rest) = readText 0 rest := by
    have h := readText_skip (body ++ [';']) rest
    rwa [List.append_assoc, List.singleton_append, List.length_append] at h
  have hlength : body.length ≠ (body ++ ';' :: rest).length := by
    rw [List.length_append, List.length_cons]
    omega
  rw [readText]
  simp only [takeWhile_reference hbody rest, hlength, hr, hskip]
  cases readText 0 rest <;> rfl

/-- A reference in the value of an attribute is the character it stands for. -/
theorem readValue_reference (body : List Char) {r : Char} (hbody : ';' ∉ body)
    (hr : referent? body = some r) (rest : List Char) :
    readValue '"' 0 ('&' :: (body ++ ';' :: rest)) =
      (readValue '"' 0 rest).map fun (a, b) => (r :: a, b) := by
  have hskip : readValue '"' (body.length + 1) (body ++ ';' :: rest) = readValue '"' 0 rest := by
    have h := readValue_skip '"' (body ++ [';']) rest
    rwa [List.append_assoc, List.singleton_append, List.length_append] at h
  have hlength : body.length ≠ (body ++ ';' :: rest).length := by
    rw [List.length_append, List.length_cons]
    omega
  rw [readValue]
  simp only [takeWhile_reference hbody rest, hlength, hr, hskip]
  cases readValue '"' 0 rest <;> rfl

/-- A character stands for itself or is written as a reference. -/
theorem escapeTextChar_cases (c : Char) :
    (escapeTextChar c = [c] ∧ c ≠ '<' ∧ c ≠ '>') ∨
      ∃ t, escapeTextChar c = '&' :: t ∧ ∀ d ∈ t, d ≠ '<' ∧ d ≠ '>' ∧ d ≠ '\r' := by
  unfold escapeTextChar
  split
  · exact .inr ⟨"amp;".toList, rfl, by simp⟩
  split
  · exact .inr ⟨"lt;".toList, rfl, by simp⟩
  split
  · exact .inr ⟨"gt;".toList, rfl, by simp⟩
  · exact .inl ⟨rfl, ‹_›, ‹_›⟩

theorem escapeTextChar_ne_nil (c : Char) : escapeTextChar c ≠ [] := by
  rcases escapeTextChar_cases c with ⟨h, -⟩ | ⟨t, h, -⟩ <;> rw [h] <;> exact List.cons_ne_nil _ _

/-- No angle bracket is left in escaped text, and carriage returns stay what they are. -/
theorem mem_escapeTextChar {c d : Char} (h : d ∈ escapeTextChar c) :
    d ≠ '<' ∧ d ≠ '>' ∧ (d = '\r' → c = '\r') := by
  rcases escapeTextChar_cases c with ⟨hc, hlt, hgt⟩ | ⟨t, hc, ht⟩
  · rw [hc, List.mem_singleton] at h
    subst h
    exact ⟨hlt, hgt, id⟩
  · rw [hc] at h
    rcases List.mem_cons.1 h with rfl | h
    · exact ⟨by decide, by decide, fun hd => absurd hd (by decide)⟩
    · exact ⟨(ht d h).1, (ht d h).2.1, fun hd => absurd hd (ht d h).2.2⟩

/-- In the value of an attribute carriage returns are escaped as well. -/
theorem mem_escapeAttributeChar {c d : Char} (h : d ∈ escapeAttributeChar c) :
    d ≠ '<' ∧ d ≠ '\r' := by
  unfold escapeAttributeChar at h
  split at h
  · revert d; simp
  split at h
  · revert d; simp
  split at h
  · revert d; simp
  split at h
  · revert d; simp
  · rename_i hcr _ _
    have hd := mem_escapeTextChar h
    exact ⟨hd.1, fun he => hcr (hd.2.2 he)⟩

/-- The mark that ends a character section cannot come up in escaped text. -/
theorem begins_sectionEnd {u : List Char} (hu : ∀ d ∈ u, d ≠ '>') (rest : List Char) :
    begins "]]>" (u ++ '<' :: rest) = false := by
  rw [Bool.eq_false_iff]
  intro h
  rw [begins, List.isPrefixOf_iff_prefix] at h
  obtain ⟨t, ht⟩ := h
  -- The third character is a `>`, and it stands before the `<`.
  rcases u with _ | ⟨a, _ | ⟨b, _ | ⟨c, u⟩⟩⟩
  · simp at ht
  · simp at ht
  · simp at ht
  · have hc : c = '>' := by
      simp at ht
      exact ht.2.2.1.symm
    exact hu c (by simp) hc

/-- One escaped character of a text is read as that character. -/
theorem readText_escapeTextChar {c : Char} (hc : isAllowed c = true) {u : List Char}
    (hu : ∀ d ∈ u, d ≠ '>') (rest : List Char) :
    readText 0 (escapeTextChar c ++ (u ++ '<' :: rest)) =
      (readText 0 (u ++ '<' :: rest)).map fun (a, b) => (c :: a, b) := by
  by_cases hamp : c = '&'
  · subst hamp
    exact readText_reference "amp".toList (by decide) (by decide) _
  · by_cases hlt : c = '<'
    · subst hlt
      exact readText_reference "lt".toList (by decide) (by decide) _
    · by_cases hgt : c = '>'
      · subst hgt
        exact readText_reference "gt".toList (by decide) (by decide) _
      · have hplain : escapeTextChar c = [c] := by
          rw [escapeTextChar, if_neg hamp, if_neg hlt, if_neg hgt]
        have hend : begins "]]>" (c :: (u ++ '<' :: rest)) = false := by
          apply begins_sectionEnd (u := c :: u)
          intro d hd
          rcases List.mem_cons.1 hd with rfl | hd
          · exact hgt
          · exact hu d hd
        rw [hplain, List.singleton_append, readText]
        simp [hlt, hamp, hend, hc]

/-- The escaped form of a text is read as the text, up to the tag that follows. -/
theorem readText_escaped {s : List Char} (hs : ∀ c ∈ s, isAllowed c = true) (rest : List Char) :
    readText 0 (s.flatMap escapeTextChar ++ '<' :: rest) = some (s, '<' :: rest) := by
  induction s with
  | nil => rw [List.flatMap_nil, List.nil_append, readText, if_pos rfl]
  | cons c s ih =>
    have hu : ∀ d ∈ s.flatMap escapeTextChar, d ≠ '>' := by
      intro d hd
      obtain ⟨e, -, hd⟩ := List.mem_flatMap.1 hd
      exact (mem_escapeTextChar hd).2.1
    rw [List.flatMap_cons, List.append_assoc,
      readText_escapeTextChar (hs c List.mem_cons_self) hu,
      ih fun d hd => hs d (List.mem_cons_of_mem _ hd)]
    rfl

/-- One escaped character of a value is read as that character. -/
theorem readValue_escapeAttributeChar {c : Char} (hc : isAllowed c = true) (rest : List Char) :
    readValue '"' 0 (escapeAttributeChar c ++ rest) =
      (readValue '"' 0 rest).map fun (a, b) => (c :: a, b) := by
  unfold escapeAttributeChar
  split
  · subst_vars
    exact readValue_reference "quot".toList (by decide) (by decide) rest
  split
  · subst_vars
    exact readValue_reference "#13".toList (by decide) (by decide) rest
  split
  · subst_vars
    exact readValue_reference "#10".toList (by decide) (by decide) rest
  split
  · subst_vars
    exact readValue_reference "#09".toList (by decide) (by decide) rest
  rename_i hquot hcr hlf htab
  unfold escapeTextChar
  split
  · subst_vars
    exact readValue_reference "amp".toList (by decide) (by decide) rest
  split
  · subst_vars
    exact readValue_reference "lt".toList (by decide) (by decide) rest
  split
  · subst_vars
    exact readValue_reference "gt".toList (by decide) (by decide) rest
  rename_i hamp hlt hgt
  -- A blank that is not escaped is a space, so that the value keeps it.
  have hspace : (if isSpace c = true then ' ' else c) = c := by
    split
    · rename_i hs
      simp only [isSpace, Bool.or_eq_true, decide_eq_true_eq] at hs
      rcases hs with ((rfl | rfl) | rfl) | rfl
      · rfl
      · exact absurd rfl htab
      · exact absurd rfl hlf
      · exact absurd rfl hcr
    · rfl
  rw [List.singleton_append, readValue]
  simp [hquot, hamp, hlt, hc, hspace]

/-- The escaped form of a value is read as the value, up to the closing quote. -/
theorem readValue_escaped {s : List Char} (hs : ∀ c ∈ s, isAllowed c = true) (rest : List Char) :
    readValue '"' 0 (s.flatMap escapeAttributeChar ++ '"' :: rest) = some (s, rest) := by
  induction s with
  | nil => rw [List.flatMap_nil, List.nil_append, readValue, if_pos rfl]
  | cons c s ih =>
    rw [List.flatMap_cons, List.append_assoc,
      readValue_escapeAttributeChar (hs c List.mem_cons_self),
      ih fun d hd => hs d (List.mem_cons_of_mem _ hd)]
    rfl

/-! ## Tags -/

/-- An attribute that can be written: its name is plain and declares no namespace, and its
value may stand in a document. -/
structure IsPlainAttribute (a : String × String) : Prop where
  name : IsPlainName a.1
  declares : a.1 ≠ "xmlns"
  value : IsLegal a.2

instance (a : String × String) : Decidable (IsPlainAttribute a) :=
  decidable_of_iff (IsPlainName a.1 ∧ a.1 ≠ "xmlns" ∧ IsLegal a.2)
    ⟨fun h => ⟨h.1, h.2.1, h.2.2⟩, fun h => ⟨h.name, h.declares, h.value⟩⟩

/-- The written form of an attribute, with the blank before it. -/
def attributeChars (a : String × String) : List Char :=
  ' ' :: (a.1.toList ++ '=' :: '"' :: (a.2.toList.flatMap escapeAttributeChar ++ ['"']))

/-- The end of an opening tag. -/
def tagEnd (closed : Bool) : List Char := if closed then [' ', '/', '>'] else ['>']

/-- A written attribute is read as it is. -/
theorem readAttribute_written {a : String × String} (h : IsPlainAttribute a) (rest : List Char) :
    readAttribute ((attributeChars a ++ rest).tail) = some (a, rest) := by
  have hvalue := readValue_escaped h.value rest
  have hname := readName_append h.name '=' (by decide)
    ('"' :: (a.2.toList.flatMap escapeAttributeChar ++ ['"'] ++ rest))
  have htail : (attributeChars a ++ rest).tail = a.1.toList ++
      '=' :: '"' :: (a.2.toList.flatMap escapeAttributeChar ++ ['"'] ++ rest) := by
    simp [attributeChars]
  rw [htail, readAttribute, hname]
  simp only [Option.bind_eq_bind, Option.bind_some, skipSpace, List.dropWhile_cons,
    show isSpace '=' = false by decide, show isSpace '"' = false by decide, Bool.false_eq_true,
    if_false, true_or, if_true, List.append_assoc, List.singleton_append, hvalue,
    String.ofList_toList]

/-- The attributes of a tag are read with its end. -/
theorem readAttributes_written {attributes : List (String × String)}
    (h : ∀ a ∈ attributes, IsPlainAttribute a) (closed : Bool) (rest : List Char) {fuel : Nat}
    (hfuel : attributes.length < fuel) :
    readAttributes fuel (attributes.flatMap attributeChars ++ (tagEnd closed ++ rest)) =
      some (attributes, closed, rest) := by
  induction attributes generalizing fuel with
  | nil =>
    obtain ⟨fuel, rfl⟩ := Nat.exists_eq_succ_of_ne_zero (Nat.ne_of_gt hfuel)
    cases closed <;> rfl
  | cons a attributes ih =>
    obtain ⟨fuel, rfl⟩ := Nat.exists_eq_succ_of_ne_zero (Nat.ne_of_gt (Nat.zero_lt_of_lt hfuel))
    have ha := h a List.mem_cons_self
    have htail := ih (fun b hb => h b (List.mem_cons_of_mem _ hb)) (Nat.lt_of_succ_lt_succ hfuel)
    let more := attributes.flatMap attributeChars ++ (tagEnd closed ++ rest)
    have hread := readAttribute_written ha more
    -- After the blank stands a name, which is neither of the two ends of a tag.
    obtain ⟨c, name, hname, hc, -⟩ := ha.name
    have hskip : skipSpace (attributeChars a ++ more) = (attributeChars a ++ more).tail := by
      have := skipSpace_append ha.name
        ('=' :: '"' :: (a.2.toList.flatMap escapeAttributeChar ++ ['"']) ++ more)
      simpa [attributeChars, skipSpace, show isSpace ' ' = true by decide] using this
    have htailcons : (attributeChars a ++ more).tail = c :: (attributeChars a ++ more).tail.tail := by
      simp [attributeChars, hname]
    have hgt : c ≠ '>' := by rintro rfl; revert hc; decide
    have hslash : c ≠ '/' := by rintro rfl; revert hc; decide
    have hlength : (attributeChars a ++ more).tail.length ≠ (attributeChars a ++ more).length := by
      simp [attributeChars]
    rw [List.flatMap_cons, List.append_assoc, readAttributes, hskip]
    split
    · rename_i heq
      rw [htailcons] at heq
      exact absurd (List.cons.inj heq).1 hgt
    · rename_i heq
      rw [htailcons] at heq
      exact absurd (List.cons.inj heq).1 hslash
    · rw [if_neg hlength, hread]
      simp only [Option.bind_eq_bind, Option.bind_some]
      rw [htail]
      rfl

/-- The written form of an opening tag. -/
def openingChars (name : String) (attributes : List (String × String)) (closed : Bool) :
    List Char :=
  '<' :: (name.toList ++ (attributes.flatMap attributeChars ++ tagEnd closed))

/-- The written form of a closing tag. -/
def closingChars (name : String) : List Char := '<' :: '/' :: (name.toList ++ ['>'])

theorem exists_endsName_cons (attributes : List (String × String)) (closed : Bool) :
    ∃ c s, attributes.flatMap attributeChars ++ tagEnd closed = c :: s ∧ endsName c = true := by
  cases attributes with
  | nil => cases closed <;> exact ⟨_, _, rfl, by decide⟩
  | cons a attributes => exact ⟨' ', _, rfl, by decide⟩

theorem length_le_flatMap_attributeChars (attributes : List (String × String)) :
    attributes.length ≤ (attributes.flatMap attributeChars).length := by
  induction attributes with
  | nil => exact Nat.le_refl 0
  | cons a attributes ih =>
    rw [List.flatMap_cons, List.length_append, List.length_cons, attributeChars, List.length_cons]
    omega

/-- A written opening tag is read as it is. -/
theorem read_opening {name : String} (hname : IsPlainName name)
    {attributes : List (String × String)} (h : ∀ a ∈ attributes, IsPlainAttribute a)
    (closed : Bool) (rest : List Char) :
    read (openingChars name attributes closed ++ rest) =
      some (some (opening name attributes closed), rest) := by
  obtain ⟨c, more, hchars, hc, -⟩ := id hname
  obtain ⟨d, s, hs, hd⟩ := exists_endsName_cons attributes closed
  have hread := readName_append hname d hd (s ++ rest)
  have hfuel : attributes.length <
      (attributes.flatMap attributeChars ++ (tagEnd closed ++ rest)).length + 1 := by
    have hle := length_le_flatMap_attributeChars attributes
    rw [List.length_append]
    omega
  have hattributes := readAttributes_written h closed rest hfuel
  rw [← List.append_assoc, hs, List.cons_append] at hattributes
  have hne : c ≠ '/' ∧ c ≠ '?' ∧ c ≠ '!' := by
    refine ⟨?_, ?_, ?_⟩ <;> rintro rfl <;> revert hc <;> decide
  rw [hchars, List.cons_append] at hread
  rw [openingChars, hs, hchars]
  simp only [List.cons_append, List.append_assoc]
  unfold read
  split
  · rename_i heq
    simp only [List.cons.injEq] at heq
    exact absurd heq.2.1 hne.1
  · rename_i heq
    simp only [List.cons.injEq] at heq
    exact absurd heq.2.1 hne.2.1
  · rename_i heq
    simp only [List.cons.injEq] at heq
    exact absurd heq.2.1 hne.2.2
  · rename_i heq
    simp only [List.cons.injEq] at heq
    exact absurd heq.2.1 hne.2.2
  · rename_i heq
    simp only [List.cons.injEq] at heq
    obtain ⟨-, rfl⟩ := heq
    simp only [hread, Option.bind_eq_bind, Option.bind_some, hattributes]
  · rename_i hne'
    exact absurd rfl (hne' _)

/-- A written closing tag is read as it is. -/
theorem read_closing {name : String} (hname : IsPlainName name) (rest : List Char) :
    read (closingChars name ++ rest) = some (some (closing name), rest) := by
  have hread := readName_append hname '>' (by decide) rest
  simp only [closingChars, List.cons_append, List.append_assoc, List.nil_append, read, hread,
    Option.bind_eq_bind, Option.bind_some, skipSpace, List.dropWhile_cons,
    show isSpace '>' = false by decide, Bool.false_eq_true, if_false]

/-- A written text is read as it is, up to the tag that follows. -/
theorem read_text {s : List Char} (hs : ∀ c ∈ s, isAllowed c = true) (hne : s ≠ [])
    (rest : List Char) :
    read (s.flatMap escapeTextChar ++ '<' :: rest) = some (some (text s), '<' :: rest) := by
  have hread := readText_escaped hs rest
  have hhead : ∀ r, s.flatMap escapeTextChar ++ '<' :: rest ≠ '<' :: r := by
    obtain ⟨c, s, rfl⟩ := List.exists_cons_of_ne_nil hne
    obtain ⟨d, e, hd⟩ := List.exists_cons_of_ne_nil (escapeTextChar_ne_nil c)
    have hlt : d ≠ '<' := (mem_escapeTextChar (c := c) (d := d) (by rw [hd]; simp)).1
    intro r heq
    rw [List.flatMap_cons, hd] at heq
    exact hlt (List.cons.inj heq).1
  unfold read
  split
  · exact absurd ‹_› (hhead _)
  · exact absurd ‹_› (hhead _)
  · exact absurd ‹_› (hhead _)
  · exact absurd ‹_› (hhead _)
  · exact absurd ‹_› (hhead _)
  · rw [hread]
    rfl

/-! ## Documents -/

/-- The tokens of a text, read one by one. -/
inductive Reads : List Char → List Token → Prop where
  | done : Reads [] []
  | step {s rest : List Char} {t : Token} {ts : List Token} (hread : read s = some (some t, rest))
      (hrest : rest.length < s.length) (h : Reads rest ts) : Reads s (t :: ts)

/-- The length of a text is fuel enough to read it. -/
theorem readAll_of_reads {s : List Char} {ts : List Token} (h : Reads s ts) {fuel : Nat}
    (hfuel : s.length ≤ fuel) : readAll fuel s = some ts := by
  induction h generalizing fuel with
  | done => cases fuel <;> rfl
  | @step s rest t ts hread hrest _ ih =>
    obtain ⟨c, s, rfl⟩ : ∃ c s', s = c :: s' := by
      cases s with
      | nil => simp at hrest
      | cons c s => exact ⟨c, s, rfl⟩
    obtain ⟨fuel, rfl⟩ : ∃ n, fuel = n + 1 := by
      rw [List.length_cons] at hfuel
      exact ⟨fuel - 1, by omega⟩
    rw [readAll, hread]
    · simp only [Option.bind_eq_bind, Option.bind_some]
      rw [ih (by omega)]
      rfl
    · exact List.cons_ne_nil _ _

theorem Reads.opening {name : String} (hname : IsPlainName name)
    {attributes : List (String × String)} (hattributes : ∀ a ∈ attributes, IsPlainAttribute a)
    (closed : Bool) {rest : List Char} {ts : List Token} (h : Reads rest ts) :
    Reads (openingChars name attributes closed ++ rest)
      (.opening name attributes closed :: ts) := by
  refine .step (read_opening hname hattributes closed rest) ?_ h
  rw [List.length_append, openingChars, List.length_cons]
  omega

theorem Reads.closing {name : String} (hname : IsPlainName name) {rest : List Char}
    {ts : List Token} (h : Reads rest ts) :
    Reads (closingChars name ++ rest) (.closing name :: ts) := by
  refine .step (read_closing hname rest) ?_ h
  rw [List.length_append, closingChars, List.length_cons]
  omega

theorem Reads.text {s : List Char} (hs : ∀ c ∈ s, isAllowed c = true) (hne : s ≠ [])
    {rest : List Char} {ts : List Token} (h : Reads ('<' :: rest) ts) :
    Reads (s.flatMap escapeTextChar ++ '<' :: rest) (.text s :: ts) := by
  refine .step (read_text hs hne rest) ?_ h
  obtain ⟨c, s, rfl⟩ := List.exists_cons_of_ne_nil hne
  have hpos : 0 < (escapeTextChar c).length := List.length_pos_iff.2 (escapeTextChar_ne_nil c)
  rw [List.flatMap_cons, List.length_append, List.length_append]
  omega

end Token

end ControlLogic.Markup
