import ControlLogic.Proofs.StructuredText.LayoutReading

/-!
# Programs of sections and statements

In a program sections are opened and closed in turn.  Declarations stand inside of them, and
statements outside (`isNested`).

* `WellLaid` holds of the layouts of such programs from which no comment is to be dropped.
* `WellLaid.declarations_eq`: of each line of the first section the first declaration is read.
  `forall_mem_declaredFirst_iff` says when these are all declarations.
* `flatMap_stated_linesRead`: all statements are read if none stands on a line that is dropped.
* `LineByLine.declared_eq`, `stated_of_mem_linesRead`: with one piece a line and one section,
  everything is read.
-/

namespace ControlLogic.StructuredText

open Text

/-! ## Sections -/

/-- Sections are opened and closed in turn, with declarations inside and statements outside. -/
def isNested : Bool → List SourcePiece → Bool
  | inside, [] => !inside
  | inside, .opening _ :: ps => !inside && isNested true ps
  | inside, .closing _ :: ps => inside && isNested false ps
  | inside, .declaration _ _ :: ps => inside && isNested true ps
  | inside, .statement _ :: ps => !inside && isNested false ps

section Nested

variable {a b : List SourcePiece}

/-- Nothing is declared before a section is opened. -/
theorem isNested_outside (ha : ∀ p ∈ a, p.isOpening = false)
    (h : isNested false (a ++ b) = true) :
    (∀ p ∈ a, p.declared = []) ∧ isNested false b = true := by
  induction a with
  | nil => exact ⟨List.forall_mem_nil _, h⟩
  | cons p a ih =>
    obtain ⟨hp, hrest⟩ := List.forall_mem_cons.1 ha
    cases p with
    | opening word => cases hp
    | closing word => cases h
    | declaration d text => cases h
    | statement text =>
      obtain ⟨hdeclared, hb⟩ := ih hrest h
      exact ⟨List.forall_mem_cons.2 ⟨rfl, hdeclared⟩, hb⟩

/-- Until a section is closed, something is declared by every piece. -/
theorem isNested_inside (ha : ∀ p ∈ a, p.isClosing = false)
    (h : isNested true (a ++ b) = true) :
    (∀ p ∈ a, p.declared ≠ []) ∧ isNested true b = true := by
  induction a with
  | nil => exact ⟨List.forall_mem_nil _, h⟩
  | cons p a ih =>
    obtain ⟨hp, hrest⟩ := List.forall_mem_cons.1 ha
    cases p with
    | opening word => cases h
    | closing word => cases hp
    | declaration d text =>
      obtain ⟨hdeclared, hb⟩ := ih hrest h
      exact ⟨List.forall_mem_cons.2 ⟨List.cons_ne_nil _ _, hdeclared⟩, hb⟩
    | statement text => cases h

end Nested

/-- The lines behind the first section. -/
def laterLines (lines : List SourceLine) : List SourceLine :=
  (((cutAt SourcePiece.isOpening lines).bind fun r => cutAt SourcePiece.isClosing r.2).map
    (·.2)).getD []

/-- Nested lines have no section, or a first one that is closed. -/
theorem exists_section {lines : List SourceLine} (h : isNested false (sourcePieces lines) = true) :
    (cutAt SourcePiece.isOpening lines = none ∧ ∀ p ∈ sourcePieces lines, p.declared = []) ∨
    ∃ r q, cutAt SourcePiece.isOpening lines = some r ∧
      cutAt SourcePiece.isClosing r.2 = some q ∧ (∀ p ∈ sourcePieces r.1, p.declared = []) ∧
      (∀ p ∈ sourcePieces q.1, p.declared ≠ []) ∧ isNested false (sourcePieces q.2) = true := by
  cases hopen : cutAt SourcePiece.isOpening lines with
  | none =>
    rw [← List.append_nil (sourcePieces lines)] at h
    exact .inl ⟨rfl, (isNested_outside (forall_of_cutAt_eq_none hopen) h).1⟩
  | some r =>
    obtain ⟨p, hp, hpieces, hbefore⟩ := sourcePieces_of_cutAt hopen
    obtain ⟨word, rfl⟩ := SourcePiece.exists_of_isOpening hp
    rw [hpieces] at h
    obtain ⟨hnone, hinside⟩ := isNested_outside hbefore h
    change isNested true (sourcePieces r.2) = true at hinside
    cases hclose : cutAt SourcePiece.isClosing r.2 with
    | none =>
      rw [← List.append_nil (sourcePieces r.2)] at hinside
      cases (isNested_inside (forall_of_cutAt_eq_none hclose) hinside).2
    | some q =>
      obtain ⟨p, hp, hpieces, hwithin⟩ := sourcePieces_of_cutAt hclose
      obtain ⟨word, rfl⟩ := SourcePiece.exists_of_isClosing hp
      rw [hpieces] at hinside
      obtain ⟨hdeclared, hafter⟩ := isNested_inside hwithin hinside
      exact .inr ⟨r, q, rfl, hclose, hnone, hdeclared, hafter⟩

/-- A program of nested sections, without comments.  No variable is declared twice, and neither the
pieces before the first section nor those in it hold the letters of the word that ends them. -/
structure WellLaid (lines : List SourceLine) : Prop where
  ne_nil : lines ≠ []
  spaced : ∀ line ∈ lines, line.Spaced
  nested : isNested false (sourcePieces lines) = true
  remark : contains "//" (sourceText lines) = false
  comment : contains "(*" (sourceText lines) = false
  names : ((lines.flatMap SourceLine.declared).map (·.name)).Nodup
  before : ∀ p ∈ sourcePieces (upTo SourcePiece.isOpening lines), Lacks openingMark p.text.toList
  within : ∀ p ∈ sourcePieces (firstSection lines), Lacks closingMark p.text.toList

/-- The first declarations of the lines of the first section. -/
def declaredFirst (lines : List SourceLine) : List Declaration :=
  (firstSection lines).filterMap (·.declared.head?)

theorem flatMap_declared (lines : List SourceLine) :
    lines.flatMap SourceLine.declared = (sourcePieces lines).flatMap SourcePiece.declared := by
  rw [sourcePieces, List.flatMap_assoc]
  rfl

theorem flatMap_declared_eq_nil {lines : List SourceLine}
    (h : ∀ p ∈ sourcePieces lines, p.declared = []) : lines.flatMap SourceLine.declared = [] := by
  rw [flatMap_declared]
  exact List.flatMap_eq_nil_iff.2 h

theorem firstSection_of_cutAt {lines : List SourceLine} {r q : List SourceLine × List SourceLine}
    (hopen : cutAt SourcePiece.isOpening lines = some r)
    (hclose : cutAt SourcePiece.isClosing r.2 = some q) :
    firstSection lines = q.1 ∧ laterLines lines = q.2 := by
  rw [firstSection, laterLines, hopen, Option.map_some, Option.getD_some, upTo, Option.bind_some,
    hclose]
  exact ⟨rfl, rfl⟩

/-- What is declared, is declared in the first section or behind it. -/
theorem flatMap_declared_sections {lines : List SourceLine}
    (h : isNested false (sourcePieces lines) = true) :
    lines.flatMap SourceLine.declared = (firstSection lines).flatMap SourceLine.declared ++
      (laterLines lines).flatMap SourceLine.declared := by
  rcases exists_section h with ⟨hopen, hnone⟩ | ⟨r, q, hopen, hclose, hnone, -⟩
  · rw [flatMap_declared_eq_nil hnone, firstSection, laterLines, hopen]
    rfl
  · obtain ⟨hfirst, hlater⟩ := firstSection_of_cutAt hopen hclose
    obtain ⟨p, hp, hpieces, -⟩ := sourcePieces_of_cutAt hopen
    obtain ⟨p', hp', hpieces', -⟩ := sourcePieces_of_cutAt hclose
    obtain ⟨word, rfl⟩ := SourcePiece.exists_of_isOpening hp
    obtain ⟨word', rfl⟩ := SourcePiece.exists_of_isClosing hp'
    rw [flatMap_declared, hpieces, hpieces', hfirst, hlater, flatMap_declared, flatMap_declared]
    simp [SourcePiece.declared, List.flatMap_eq_nil_iff.2 hnone]

theorem heads_sublist {α β : Type} (f : α → List β) (l : List α) :
    (l.filterMap fun a => (f a).head?).Sublist (l.flatMap f) := by
  induction l with
  | nil => exact List.Sublist.refl []
  | cons a l ih =>
    rw [List.flatMap_cons]
    cases hf : f a with
    | nil => simpa [hf] using ih
    | cons b bs => simpa [hf] using ih.trans (List.sublist_append_right bs _)

/-- What is read is declared. -/
theorem WellLaid.declaredFirst_sublist {lines : List SourceLine} (h : WellLaid lines) :
    (declaredFirst lines).Sublist (lines.flatMap SourceLine.declared) := by
  rw [flatMap_declared_sections h.nested]
  exact (heads_sublist _ _).trans (List.sublist_append_left _ _)

/-- Heads are all there is, if no list has more than a head. -/
theorem forall_mem_heads_iff {α β : Type} {f : α → List β} {l : List α}
    (h : (l.flatMap f).Nodup) :
    (∀ b ∈ l.flatMap f, b ∈ l.filterMap fun a => (f a).head?) ↔ ∀ a ∈ l, (f a).length ≤ 1 := by
  induction l with
  | nil => simp
  | cons a l ih =>
    rw [List.flatMap_cons, List.nodup_append] at h
    obtain ⟨ha, hl, hdisjoint⟩ := h
    rw [List.forall_mem_cons, ← ih hl, List.flatMap_cons, List.forall_mem_append]
    cases hf : f a with
    | nil => simp [hf]
    | cons x xs =>
      rw [hf] at ha hdisjoint
      have hcons : (a :: l).filterMap (fun a => (f a).head?) =
          x :: l.filterMap fun a => (f a).head? := by
        rw [List.filterMap_cons, hf]
        rfl
      rw [hcons]
      refine and_congr ⟨fun hall => ?_, fun hlength b hb => ?_⟩
        (forall₂_congr fun b hb => ⟨fun hmem => ?_, List.mem_cons_of_mem _⟩)
      · cases xs with
        | nil => exact le_refl 1
        | cons y xs =>
          -- the second element is neither the head nor behind it
          have hy : y ∈ x :: y :: xs := List.mem_cons_of_mem _ List.mem_cons_self
          rcases List.mem_cons.1 (hall y hy) with rfl | hmem
          · simp at ha
          · exact absurd rfl (hdisjoint y hy y ((heads_sublist f l).subset hmem))
      · cases xs with
        | nil => exact List.mem_singleton.1 hb ▸ List.mem_cons_self
        | cons y xs => simp at hlength
      · rcases List.mem_cons.1 hmem with rfl | hmem
        · exact absurd rfl (hdisjoint b List.mem_cons_self b hb)
        · exact hmem

/-- All declarations are read exactly if they stand on lines of their own in one section. -/
theorem forall_mem_declaredFirst_iff {lines : List SourceLine} (h : WellLaid lines) :
    (∀ d ∈ lines.flatMap SourceLine.declared, d ∈ declaredFirst lines) ↔
      (laterLines lines).flatMap SourceLine.declared = [] ∧
        ∀ line ∈ firstSection lines, line.declared.length ≤ 1 := by
  have hnodup := h.names.of_map
  rw [flatMap_declared_sections h.nested] at hnodup ⊢
  obtain ⟨hfirst, -, hdisjoint⟩ := List.nodup_append.1 hnodup
  rw [List.forall_mem_append, and_comm, declaredFirst, forall_mem_heads_iff hfirst]
  refine and_congr_left fun _ => ⟨fun hlater => ?_, fun hlater d hd => ?_⟩
  · refine List.eq_nil_iff_forall_not_mem.2 fun d hd => ?_
    exact hdisjoint d ((heads_sublist _ _).subset (hlater d hd)) d hd rfl
  · rw [hlater] at hd
    cases hd

theorem WellLaid.declarations_eq {lines : List SourceLine} (h : WellLaid lines) :
    declarations (sourceText lines) = declaredFirst lines := by
  refine declarations_sourceText h.spaced h.before h.within (fun r hr => ?_) fun p hp => ?_
  · rcases exists_section h.nested with ⟨hopen, -⟩ | ⟨r', q, hopen, hclose, -⟩
    · rw [hopen] at hr
      cases hr
    · rw [hopen] at hr
      cases hr
      rw [hclose]
      exact Option.some_ne_none q
  · rcases exists_section h.nested with ⟨hopen, -⟩ | ⟨r, q, hopen, hclose, -, hdeclared, -⟩
    · rw [firstSection, hopen] at hp
      cases hp
    · rw [(firstSection_of_cutAt hopen hclose).1] at hp
      exact hdeclared p hp

/-! ## Statements -/

theorem SourcePiece.holdsInOrder_stated (p : SourcePiece) :
    HoldsInOrder p.stated p.text.toList := by
  cases p with
  | statement text => exact ⟨[], [], by simp [SourcePiece.text], trivial⟩
  | _ => trivial

/-- What is stated on a line stands on it in order. -/
theorem SourceLine.holdsInOrder_stated (line : SourceLine) :
    HoldsInOrder line.stated line.body.toList := by
  have hplaced : ∀ ps : List PlacedPiece, HoldsInOrder
      ((ps.map (·.piece)).flatMap SourcePiece.stated) (ps.flatMap PlacedPiece.chars) := by
    intro ps
    induction ps with
    | nil => trivial
    | cons p ps ih =>
      rw [List.map_cons, List.flatMap_cons, List.flatMap_cons, PlacedPiece.chars]
      exact (p.piece.holdsInOrder_stated.append p.gap.toList).append_append ih
  rw [stated, pieces, body]
  cases line.placed with
  | nil => trivial
  | cons p ps =>
    rw [List.map_cons, List.flatMap_cons, String.toList_append, String.toList_ofList]
    exact p.piece.holdsInOrder_stated.append_append (hplaced ps)

/-- If nothing is stated on the lines that are dropped, everything is on those that are kept. -/
theorem flatMap_stated_linesRead {inside : Bool} {lines : List SourceLine}
    (h : ∀ line ∈ linesRead false inside lines, line.stated = []) :
    (linesRead true inside lines).flatMap SourceLine.stated =
      lines.flatMap SourceLine.stated := by
  induction lines generalizing inside with
  | nil => rfl
  | cons line rest ih =>
    rw [linesRead, List.forall_mem_append] at h
    rw [linesRead, List.flatMap_append, ih h.2, List.flatMap_cons]
    cases hkept : line.isKept inside with
    | true => simp
    | false =>
      have hstated : line.stated = [] := h.1 line (by simp [hkept])
      simp [hstated]

/-! ## One piece a line -/

/-- Every piece has a line of its own, and there is at most one section. -/
def LineByLine (lines : List SourceLine) : Prop :=
  (∀ line ∈ lines, line.pieces.length ≤ 1) ∧
    (sourcePieces lines).countP SourcePiece.isOpening ≤ 1

/-- With one piece a line the reader knows where sections begin and end. -/
theorem stated_of_mem_linesRead {inside : Bool} {lines : List SourceLine}
    (hpieces : ∀ line ∈ lines, line.pieces.length ≤ 1)
    (h : isNested inside (sourcePieces lines) = true) :
    ∀ line ∈ linesRead false inside lines, line.stated = [] := by
  induction lines generalizing inside with
  | nil => exact List.forall_mem_nil _
  | cons line rest ih =>
    obtain ⟨hline, hrest⟩ := List.forall_mem_cons.1 hpieces
    rw [sourcePieces_cons] at h
    rw [linesRead, List.forall_mem_append, SourceLine.isKept, SourceLine.leaves]
    cases hps : line.pieces with
    | nil =>
      rw [hps] at h
      exact ⟨by simp [SourceLine.stated, hps], ih hrest h⟩
    | cons p ps =>
      rw [hps, List.length_cons] at hline
      obtain rfl : ps = [] := List.length_eq_zero_iff.1 (by omega)
      rw [hps] at h
      cases p with
      | opening word =>
        cases inside with
        | true => cases h
        | false => exact ⟨by simp [SourceLine.stated, hps, SourcePiece.stated], ih hrest h⟩
      | closing word =>
        cases inside with
        | true => exact ⟨by simp [SourceLine.stated, hps, SourcePiece.stated], ih hrest h⟩
        | false => cases h
      | declaration d text =>
        cases inside with
        | true => exact ⟨by simp [SourceLine.stated, hps, SourcePiece.stated], ih hrest h⟩
        | false => cases h
      | statement text =>
        cases inside with
        | true => cases h
        | false => exact ⟨by simp, ih hrest h⟩

theorem length_pieces_of_cutAt {m : SourcePiece → Bool} {lines a b : List SourceLine}
    (hlines : ∀ line ∈ lines, line.pieces.length ≤ 1) (h : cutAt m lines = some (a, b)) :
    (∀ line ∈ a, line.pieces.length ≤ 1) ∧ ∀ line ∈ b, line.pieces.length ≤ 1 := by
  obtain ⟨before, line, after, ps, mark, qs, rfl, hplaced, rfl, rfl, -, -⟩ := exists_of_cutAt h
  rw [List.forall_mem_append, List.forall_mem_cons] at hlines
  obtain ⟨hbefore, hline, hafter⟩ := hlines
  rw [SourceLine.pieces, hplaced] at hline
  simp only [List.length_map, List.length_append, List.length_cons] at hline
  rw [List.forall_mem_append, List.forall_mem_singleton, List.forall_mem_cons]
  have hps : ps.length ≤ 1 := by omega
  have hqs : qs.length ≤ 1 := by omega
  exact ⟨⟨hbefore, by simpa [SourceLine.pieces] using hps⟩,
    by simpa [SourceLine.pieces] using hqs, hafter⟩

theorem SourceLine.length_declared_le (line : SourceLine) :
    line.declared.length ≤ line.pieces.length := by
  rw [declared]
  induction line.pieces with
  | nil => exact le_refl 0
  | cons p ps ih =>
    have hp : p.declared.length ≤ 1 := by cases p <;> simp [SourcePiece.declared]
    rw [List.flatMap_cons, List.length_append, List.length_cons]
    omega

/-- With one piece a line and one section everything is declared where it is looked for. -/
theorem LineByLine.declared_eq {lines : List SourceLine} (h : LineByLine lines)
    (hnested : isNested false (sourcePieces lines) = true) :
    (laterLines lines).flatMap SourceLine.declared = [] ∧
      ∀ line ∈ firstSection lines, line.declared.length ≤ 1 := by
  rcases exists_section hnested with ⟨hopen, -⟩ | ⟨r, q, hopen, hclose, -, -, hafter⟩
  · rw [laterLines, firstSection, hopen]
    exact ⟨rfl, List.forall_mem_nil _⟩
  · obtain ⟨hfirst, hlater⟩ := firstSection_of_cutAt hopen hclose
    obtain ⟨p, hp, hpieces, -⟩ := sourcePieces_of_cutAt hopen
    obtain ⟨p', -, hpieces', -⟩ := sourcePieces_of_cutAt hclose
    rw [hfirst, hlater]
    constructor
    · have hcount := h.2
      rw [hpieces, hpieces', List.countP_append, List.countP_cons_of_pos hp, List.countP_append,
        List.countP_cons] at hcount
      have hnone : ∀ p ∈ sourcePieces q.2, p.isOpening = false := by
        have hzero : (sourcePieces q.2).countP SourcePiece.isOpening = 0 := by omega
        simpa using List.countP_eq_zero.1 hzero
      rw [← List.append_nil (sourcePieces q.2)] at hafter
      exact flatMap_declared_eq_nil (isNested_outside hnone hafter).1
    · intro line hline
      have hlines := (length_pieces_of_cutAt h.1 hopen).2
      exact le_trans line.length_declared_le ((length_pieces_of_cutAt hlines hclose).1 line hline)

end ControlLogic.StructuredText
