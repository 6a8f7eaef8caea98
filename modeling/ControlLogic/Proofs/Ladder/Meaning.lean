import ControlLogic.Proofs.Ladder.Code
import ControlLogic.Proofs.Ladder.Reading

/-!
# The meaning of translated rungs

The Structured Text of a rung of bit instructions, executed, against the scan of the rung.
Operands are names, so that the text is a bit program.

* `execute_rungText_eq_runRung`: the two do the same on a branch of contacts with one coil at
  its end, and on a stage of contacts before a stage of latching coils.
* `execute_series`: on one branch of contacts and coils in any order, the text restores the
  power behind each coil.  So it does what the rung does if at most one coil stands to the
  right of the first contact, and not otherwise.
* `execute_output_stage`: before a stage of output coils, the text switches the coils on but
  never off.
-/

namespace ControlLogic.Ladder

open StructuredText

/-! ## From operands to readable calls -/

/-- A letter is no delimiter. -/
theorem isDelimiter_of_isLetter {c : Char} (h : isLetter c = true) : isDelimiter c = false := by
  simp only [isLetter, Bool.and_eq_true, Bool.not_eq_true', decide_eq_true_eq,
    Option.isNone_iff_eq_none] at h
  obtain ⟨⟨hblank, -⟩, hmark⟩ := h
  have hsep : c ∉ ['(', ')', ',', ';', '<', '>'] := by
    intro hmem
    have hsome : ['(', ')', ',', ';', '<', '>'].all (fun d => (mark? d).isSome) = true := by
      decide
    have hc := List.all_eq_true.1 hsome c hmem
    rw [hmark] at hc
    exact absurd hc (by decide)
  simpa [isDelimiter, hblank] using hsep

theorem Element.operands_call (e : Element) : e.call.operands = [e.operand] := by
  cases e <;> rfl

theorem Element.name_call_mem (e : Element) :
    e.call.name ∈ ["XIC", "XIO", "OTE", "OTL", "OTU"] := by
  rcases e with ⟨x, on⟩ | ⟨kind, x⟩
  · cases on <;> simp [call, Contact.call]
  · cases kind <;> simp [call, Coil.call, CoilKind.name]

/-- A bit instruction on a name is read back from its written form. -/
theorem Element.readable_call {e : Element} (h : IsName e.operand) : e.call.Readable := by
  have hname : ∀ n ∈ ["XIC", "XIO", "OTE", "OTL", "OTU"], n.toList ≠ [] ∧
      n.toList.all (fun d => !isDelimiter d && d ≠ '[' && d ≠ ']') = true := by decide
  obtain ⟨hne, hchars⟩ := hname _ e.name_call_mem
  refine ⟨hne, fun d hd => ?_, ?_, ?_, ?_⟩
  · simpa [and_assoc] using List.all_eq_true.1 hchars d hd
  · simp [e.operands_call]
  · simpa [e.operands_call] using h.toList_ne
  · rw [e.operands_call]
    intro p hp d hd
    rw [List.mem_singleton.1 hp] at hd
    exact isDelimiter_of_isLetter (h.isLetter d hd)

/-- The text of one branch restores the power behind each coil. -/
theorem execute_branch {text : String} {es : List Element}
    (hnames : ∀ e ∈ es, IsName e.operand) (htext : IsBranch text (es.map Element.call))
    (v : Valuation) :
    execute (rungText text) v = some (scanBranch restored es ⟨true, v⟩).bits := by
  have hreadable : ∀ c ∈ es.map Element.call, c.Readable := by
    intro c hc
    obtain ⟨e, he, rfl⟩ := List.mem_map.1 hc
    exact e.readable_call (hnames e he)
  have hcode : rungCode (readRung text) = rungCode [[es].map (·.map Element.call)] := by
    rw [readRung_of_isBranch hreadable htext]
    cases es <;> rfl
  rw [rungText, hcode, execute_stage (by simpa using hnames) (by simp [IsIndent])]
  rw [stageCoils, List.flatMap_singleton, runGuarded_guardedCoils, List.all_nil]

/-- The text of a stage of contacts before a stage of coils drives the coils if the contacts
pass, and does nothing if they fail. -/
theorem execute_two_stages {text : String} {first : List (List Contact)}
    {second : List (List Coil)} (hfirst : ∀ b ∈ first, ∀ c ∈ b, IsName c.operand)
    (hsecond : ∀ b ∈ second, ∀ k ∈ b, IsName k.operand)
    (hread : readRung text = [first.map (·.map Contact.call), second.map (·.map Coil.call)])
    {tab : String} (htab : IsIndent tab) (v : Valuation) :
    execute ((rungCode (readRung text)).text tab) v =
      some (if stagePower first v then driveAll true second.flatten v else v) := by
  obtain ⟨hne, hbranch⟩ := ne_nil_of_mem_readRung
    (show first.map (·.map Contact.call) ∈ readRung text by simp [hread])
  have hcoils : second.map (·.map Coil.call) =
      (second.map (·.map Element.coil)).map (·.map Element.call) := by
    simp [Function.comp_def, Element.call]
  rw [hread, hcoils, execute_stages (by simpa using hne) (by simpa using hbranch) hfirst ?_ []
    htab, runGuarded_coils]
  intro b hb e he
  obtain ⟨ks, hks, rfl⟩ := List.mem_map.1 hb
  obtain ⟨k, hk, rfl⟩ := List.mem_map.1 he
  exact hsecond ks hks k hk

/-! ## Rungs that keep their meaning -/

/-- The text of a rung does what the rung does in two families of rungs: contacts in series
with one coil at the end, and parallel branches of contacts before parallel branches of coils
that latch or unlatch. -/
theorem execute_rungText_eq_runRung :
    (∀ (text : String) (cs : List Contact) (k : Coil),
      (∀ c ∈ cs, IsName c.operand) → IsName k.operand →
      IsBranch text (cs.map Contact.call ++ [k.call]) → ∀ v,
        execute (rungText text) v = some (runRung [[cs.map .contact ++ [.coil k]]] v)) ∧
    ∀ (text : String) (first : List (List Contact)) (second : List (List Coil)),
      (∀ b ∈ first, ∀ c ∈ b, IsName c.operand) →
      (∀ b ∈ second, ∀ k ∈ b, IsName k.operand ∧ k.kind ≠ .energize) →
      readRung text = [first.map (·.map Contact.call), second.map (·.map Coil.call)] → ∀ v,
        execute (rungText text) v =
          some (runRung [first.map (·.map .contact), second.map (·.map .coil)] v) := by
  constructor
  · intro text cs k hcs hk htext v
    have hnames : ∀ e ∈ cs.map Element.contact ++ [Element.coil k], IsName e.operand := by
      intro e he
      rcases List.mem_append.1 he with he | he
      · obtain ⟨c, hc, rfl⟩ := List.mem_map.1 he
        exact hcs c hc
      · rw [List.mem_singleton.1 he]; exact hk
    have hcalls : (cs.map Element.contact ++ [Element.coil k]).map Element.call =
        cs.map Contact.call ++ [k.call] := by
      simp [Function.comp_def, Element.call]
    have hone : OneCoil (cs.map .contact ++ [.coil k]) := by
      apply oneCoil_of_countP_le_one
      simp [List.countP_map, Function.comp_def]
    rw [execute_branch hnames (by rwa [hcalls]), scanBranch_restored_eq hone, runRung_series]
  · intro text first second hfirst hsecond hread v
    rw [rungText, execute_two_stages hfirst (fun b hb k hk => (hsecond b hb k hk).1) hread
      (by simp [IsIndent]), runRung_contacts_coils]
    split
    · rename_i hpower
      rw [hpower]
    · rename_i hpower
      have hlatching : ∀ k ∈ second.flatten, k.kind ≠ .energize := by
        intro k hk
        obtain ⟨b, hb, hk⟩ := List.mem_flatten.1 hk
        exact (hsecond b hb k hk).2
      rw [Bool.eq_false_iff.2 hpower, driveAll_false hlatching]

theorem execute_rungText_eq_runRung_instances :
    (∀ v, execute (rungText "XIC(Start) XIO(Stop)XIC(In[2].0) OTE(Motor);") v =
      some (runRung [[[.contact ⟨"Start", true⟩, .contact ⟨"Stop", false⟩,
        .contact ⟨"In[2].0", true⟩, .coil ⟨.energize, "Motor"⟩]]] v)) ∧
    ∀ v, execute (rungText "[XIC(a),XIO(b)XIC(c)][OTL(d),OTU(e)OTL(a)];") v =
      some (runRung [[[.contact ⟨"a", true⟩], [.contact ⟨"b", false⟩, .contact ⟨"c", true⟩]],
        [[.coil ⟨.latch, "d"⟩], [.coil ⟨.unlatch, "e"⟩, .coil ⟨.latch, "a"⟩]]] v) :=
  ⟨execute_rungText_eq_runRung.1 _
      [⟨"Start", true⟩, ⟨"Stop", false⟩, ⟨"In[2].0", true⟩] ⟨.energize, "Motor"⟩
      (by decide) (by decide) (.inr (by decide)),
    execute_rungText_eq_runRung.2 _
      [[⟨"a", true⟩], [⟨"b", false⟩, ⟨"c", true⟩]]
      [[⟨.latch, "d"⟩], [⟨.unlatch, "e"⟩, ⟨.latch, "a"⟩]]
      (by decide) (by decide) (by decide)⟩

/-! ## Contacts and coils in any order -/

/-- The text of one branch of contacts and coils in any order.  It restores the power behind
each coil.  It does what the rung does if at most one coil stands to the right of the first
contact; otherwise some valuation tells them apart, unless an operand occurs twice. -/
theorem execute_series {text : String} {es : List Element}
    (hnames : ∀ e ∈ es, IsName e.operand) (htext : IsBranch text (es.map Element.call)) :
    (∀ v, execute (rungText text) v = some (scanBranch restored es ⟨true, v⟩).bits) ∧
    (OneCoil es → ∀ v, execute (rungText text) v = some (runRung [[es]] v)) ∧
    ((es.map Element.operand).Nodup → ¬ OneCoil es →
      ∃ v, execute (rungText text) v ≠ some (runRung [[es]] v)) := by
  refine ⟨execute_branch hnames htext, fun hone v => ?_, fun hnodup hmany => ?_⟩
  · rw [execute_branch hnames htext, scanBranch_restored_eq hone, runRung_series]
  · obtain ⟨v, hv⟩ := exists_scanBranch_restored_ne hmany hnodup
    refine ⟨v, fun heq => hv ?_⟩
    rw [execute_branch hnames htext, runRung_series] at heq
    exact Option.some.inj heq

theorem execute_series_instances :
    (∀ v, execute (rungText "OTL(a)XIC(b) XIO(c)OTE(d)XIC(e)") v =
      some (runRung [[[.coil ⟨.latch, "a"⟩, .contact ⟨"b", true⟩, .contact ⟨"c", false⟩,
        .coil ⟨.energize, "d"⟩, .contact ⟨"e", true⟩]]] v)) ∧
    ∃ v, execute (rungText "XIC(a)OTE(b)OTE(c)") v ≠
      some (runRung [[[.contact ⟨"a", true⟩, .coil ⟨.energize, "b"⟩, .coil ⟨.energize, "c"⟩]]]
        v) :=
  ⟨(execute_series (by decide) (.inl (by decide))).2.1 (by decide),
    (execute_series (by decide) (.inl (by decide))).2.2 (by decide) (by decide)⟩

/-- The second coil of a rung is switched on although the contact before both fails. -/
theorem second_coil_without_contact :
    IsBranch "XIC(a)OTE(b)OTE(c)" ([.contact ⟨"a", true⟩, .coil ⟨.energize, "b"⟩,
      .coil ⟨.energize, "c"⟩].map Element.call) ∧
    (execute (rungText "XIC(a)OTE(b)OTE(c)") fun _ => false).map (· "c") = some true ∧
    runRung [[[.contact ⟨"a", true⟩, .coil ⟨.energize, "b"⟩, .coil ⟨.energize, "c"⟩]]]
      (fun _ => false) "c" = false :=
  ⟨.inl (by decide), by decide +kernel, by decide⟩

/-! ## A stage of output coils -/

/-- The text of a stage of contacts before a stage of output coils.  It switches the coils on
if the contacts pass, and changes nothing if they fail.  So the coils show the power exactly if
it is there, or if they all were off before. -/
theorem execute_output_stage {text : String} {first : List (List Contact)}
    {second : List (List Coil)} (hfirst : ∀ b ∈ first, ∀ c ∈ b, IsName c.operand)
    (hsecond : ∀ b ∈ second, ∀ k ∈ b, IsName k.operand ∧ k.kind = .energize)
    (hread : readRung text = [first.map (·.map Contact.call), second.map (·.map Coil.call)])
    {tab : String} (htab : IsIndent tab) (v : Valuation) :
    ∃ w, execute ((rungCode (readRung text)).text tab) v = some w ∧
      (∀ x, w x = (v x || stagePower first v && second.flatten.any (·.operand == x))) ∧
      ((∀ k ∈ second.flatten, w k.operand = stagePower first v) ↔
        stagePower first v = true ∨ ∀ k ∈ second.flatten, v k.operand = false) := by
  have houtput : ∀ k ∈ second.flatten, k.kind = .energize := by
    intro k hk
    obtain ⟨b, hb, hk⟩ := List.mem_flatten.1 hk
    exact (hsecond b hb k hk).2
  refine ⟨_, execute_two_stages hfirst (fun b hb k hk => (hsecond b hb k hk).1) hread htab v,
    ?_, ?_⟩
  · intro x
    cases stagePower first v
    · simp
    · simpa using driveAll_true_apply houtput v x
  · cases stagePower first v
    · simp
    · refine iff_of_true (fun k hk => ?_) (.inl rfl)
      rw [if_pos rfl, driveAll_true_apply houtput]
      have hself : second.flatten.any (·.operand == k.operand) = true :=
        List.any_eq_true.2 ⟨k, hk, by simp⟩
      rw [hself, Bool.or_true]

theorem execute_output_stage_instance :
    ∃ w, execute ((rungCode (readRung "[XIC(a),XIO(b)]OTE(c)OTE(d);")).text "\t")
        (fun x => x == "b" || x == "c") = some w ∧ w "c" = true ∧ w "d" = false ∧
      ¬ ∀ k ∈ [(⟨.energize, "c"⟩ : Coil), ⟨.energize, "d"⟩], w k.operand =
        stagePower [[⟨"a", true⟩], [⟨"b", false⟩]] (fun x => x == "b" || x == "c") := by
  obtain ⟨w, hw, hbits, hshow⟩ := execute_output_stage
    (show ∀ b ∈ [[(⟨"a", true⟩ : Contact)], [⟨"b", false⟩]], ∀ c ∈ b, IsName c.operand by decide)
    (show ∀ b ∈ [[(⟨.energize, "c"⟩ : Coil), ⟨.energize, "d"⟩]], ∀ k ∈ b,
      IsName k.operand ∧ k.kind = .energize by decide)
    (show readRung "[XIC(a),XIO(b)]OTE(c)OTE(d);" = _ by decide)
    (show IsIndent "\t" by decide) (fun x => x == "b" || x == "c")
  refine ⟨w, hw, ?_, ?_, fun h => ?_⟩
  · rw [hbits]; decide
  · rw [hbits]; decide
  · exact absurd (hshow.1 h) (by decide)

/-- An output coil stays on although no branch before it passes power. -/
theorem output_coil_stays_on :
    readRung "[XIC(a),XIC(b)]OTE(c)" =
      [[[(⟨"a", true⟩ : Contact)], [⟨"b", true⟩]].map (·.map Contact.call),
        [[(⟨.energize, "c"⟩ : Coil)]].map (·.map Coil.call)] ∧
    (execute ((rungCode (readRung "[XIC(a),XIC(b)]OTE(c)")).text "") fun x => x == "c").map
      (· "c") = some true ∧
    stagePower [[⟨"a", true⟩], [⟨"b", true⟩]] (fun x => x == "c") = false :=
  ⟨by decide, by decide +kernel, by decide⟩

end ControlLogic.Ladder
