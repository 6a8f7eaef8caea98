import ControlLogic.Ladder.Instruction
import ControlLogic.Proofs.Text.Chars

/-!
# Instructions on one line

Tests and statements are built from the name and the operands of an instruction.  If no line ends in
those, each test and each statement stands on one line: `Call.OneLine.test` and `Call.OneLine.body`.
The proof for outputs goes by the number of operands (`oneLineEach_unary` and so on), and then by
the instruction.
-/

namespace ControlLogic.Ladder

open StructuredText Text

/-- No line ends in the text. -/
def OneLine (s : String) : Prop := '\n' ∉ s.toList

instance (s : String) : Decidable (OneLine s) := inferInstanceAs (Decidable (¬ _))

theorem oneLine_join {sep : String} {pieces : List String} (hsep : OneLine sep)
    (h : ∀ piece ∈ pieces, OneLine piece) : OneLine (join sep pieces) := by
  intro hmem
  rcases mem_toList_join hmem with hmem | ⟨piece, hpiece, hmem⟩
  · exact hsep hmem
  · exact h piece hpiece hmem

theorem oneLine_toString (n : Nat) : OneLine (toString n) := not_mem_toString (by decide) n

/-- No line ends within a statement. -/
def OneLineEach (body : List Statement) : Prop :=
  ∀ s ∈ body, OneLine s.text

section

variable {name : String} {operands : List String}

theorem oneLineEach_wrongCount (hname : OneLine name) (n : Nat) :
    OneLineEach (wrongCount name n) := by
  have hnumber := oneLine_toString n
  have hwords : OneLine (if n = 1 then " parameter" else " parameters") := by
    split <;> decide
  rw [OneLine] at hname hnumber hwords
  simp only [OneLineEach, OneLine, wrongCount, Statement.text, List.mem_singleton, forall_eq,
    String.toList_append, List.mem_append, not_or]
  exact ⟨by decide, ⟨⟨⟨by decide, hname⟩, by decide⟩, hnumber⟩, hwords⟩

theorem oneLineEach_unary (hname : OneLine name) (hoperands : ∀ p ∈ operands, OneLine p)
    {f : String → List Statement} (hf : ∀ a, OneLine a → OneLineEach (f a)) :
    OneLineEach (unary name f operands) := by
  rw [unary.eq_def]
  split
  · exact hf _ (hoperands _ (by simp))
  · exact oneLineEach_wrongCount hname 1

theorem oneLineEach_binary (hname : OneLine name) (hoperands : ∀ p ∈ operands, OneLine p)
    {f : String → String → List Statement}
    (hf : ∀ a b, OneLine a → OneLine b → OneLineEach (f a b)) :
    OneLineEach (binary name f operands) := by
  rw [binary.eq_def]
  split
  · exact hf _ _ (hoperands _ (by simp)) (hoperands _ (by simp))
  · exact oneLineEach_wrongCount hname 2

theorem oneLineEach_ternary (hname : OneLine name) (hoperands : ∀ p ∈ operands, OneLine p)
    {f : String → String → String → List Statement}
    (hf : ∀ a b c, OneLine a → OneLine b → OneLine c → OneLineEach (f a b c)) :
    OneLineEach (ternary name f operands) := by
  rw [ternary.eq_def]
  split
  · exact hf _ _ _ (hoperands _ (by simp)) (hoperands _ (by simp)) (hoperands _ (by simp))
  · exact oneLineEach_wrongCount hname 3

theorem oneLineEach_quaternary (hname : OneLine name) (hoperands : ∀ p ∈ operands, OneLine p)
    {f : String → String → String → String → List Statement}
    (hf : ∀ a b c d, OneLine a → OneLine b → OneLine c → OneLine d → OneLineEach (f a b c d)) :
    OneLineEach (quaternary name f operands) := by
  rw [quaternary.eq_def]
  split
  · exact hf _ _ _ _ (hoperands _ (by simp)) (hoperands _ (by simp)) (hoperands _ (by simp))
      (hoperands _ (by simp))
  · exact oneLineEach_wrongCount hname 4

theorem oneLineEach_invoke {arguments : List String} (hname : OneLine name)
    (harguments : ∀ p ∈ arguments, OneLine p) : OneLineEach [.invoke name arguments] := by
  have hjoin : OneLine (join ", " arguments) := oneLine_join (by decide) harguments
  rw [OneLine] at hname hjoin
  simp only [OneLineEach, OneLine, Statement.text, List.mem_singleton, forall_eq,
    String.toList_append, List.mem_append, not_or]
  exact ⟨⟨⟨hname, by decide⟩, hjoin⟩, by decide⟩

theorem oneLine_namedArgument {key value : String} (hkey : OneLine key) (hvalue : OneLine value) :
    ∀ p ∈ namedArgument key value, OneLine p := by
  rw [namedArgument]
  rw [OneLine] at hkey hvalue
  split <;> simp [OneLine, hkey, hvalue]

theorem oneLineEach_outputBody? (hname : OneLine name) (hoperands : ∀ p ∈ operands, OneLine p)
    {sense : Bool} {body : List Statement} (h : outputBody? name sense operands = some body) :
    OneLineEach body := by
  have hbit : OneLine (if sense then "1" else "0") := by cases sense <;> decide
  have htruth : OneLine (truthWord sense) := by cases sense <;> decide
  rw [OneLine] at hbit htruth
  unfold outputBody? at h
  -- One case for each instruction: by the number of its operands, and then by its statements.
  split at h <;> cases h
  all_goals first
    | refine oneLineEach_unary hname hoperands fun a ha => ?_
      simp_all [OneLineEach, OneLine, Statement.text]
    | refine oneLineEach_binary hname hoperands fun a b ha hb => ?_
      simp_all [OneLineEach, OneLine, Statement.text]
    | refine oneLineEach_ternary hname hoperands fun a b c ha hb hc => ?_
      simp_all [OneLineEach, OneLine, Statement.text]
    -- The arguments of `GSV` have names.
    | refine oneLineEach_quaternary hname hoperands fun a b c d ha hb hc hd =>
        oneLineEach_invoke hname ?_
      simp only [List.forall_mem_append]
      exact ⟨⟨⟨oneLine_namedArgument (by decide) ha, oneLine_namedArgument (by decide) hb⟩,
        oneLine_namedArgument (by decide) hc⟩, oneLine_namedArgument (by decide) hd⟩
    | refine oneLineEach_quaternary hname hoperands fun a b c d ha hb hc hd => ?_
      simp_all [OneLineEach, OneLine, Statement.text]
    | simp [OneLineEach, OneLine, Statement.text]

end

/-- No line ends in the name or an operand. -/
structure Call.OneLine (c : Call) : Prop where
  name : Ladder.OneLine c.name
  operands : ∀ p ∈ c.operands, Ladder.OneLine p

instance (c : Call) : Decidable c.OneLine :=
  decidable_of_iff (Ladder.OneLine c.name ∧ ∀ p ∈ c.operands, Ladder.OneLine p)
    ⟨fun h => ⟨h.1, h.2⟩, fun h => ⟨h.name, h.operands⟩⟩

theorem Call.OneLine.body {c : Call} (h : c.OneLine) (sense : Bool) :
    OneLineEach (c.body sense) := by
  rw [Call.body]
  cases hbody : outputBody? c.name sense c.operands with
  | some body => exact oneLineEach_outputBody? h.name h.operands hbody
  | none =>
    have hjoin : Ladder.OneLine (join ", " c.operands) := oneLine_join (by decide) h.operands
    have hname := h.name
    rw [Ladder.OneLine] at hjoin hname
    simp only [Option.getD_none, OneLineEach, Ladder.OneLine, Statement.text, List.mem_singleton,
      forall_eq, String.toList_append, List.mem_append, not_or]
    exact ⟨by decide, ⟨⟨⟨by decide, hname⟩, by decide⟩, hjoin⟩, by decide⟩

/-- A contact tests bits or compares. -/
theorem exists_of_contactTest? {name : String} {operands : List String} {t : Test}
    (h : contactTest? name operands = some t) :
    (∃ on, t = bitTest on operands) ∨ ∃ how, t = comparisonTest how operands := by
  unfold contactTest? at h
  split at h <;> cases h
  iterate 2 exact .inl ⟨_, rfl⟩
  all_goals exact .inr ⟨_, rfl⟩

theorem Call.OneLine.test {c : Call} (h : c.OneLine) {t : Test}
    (ht : contactTest? c.name c.operands = some t) : Ladder.OneLine t.text := by
  have hnever : Ladder.OneLine Test.never.text := by decide
  have hbits : ∀ on, Ladder.OneLine (bitTest on c.operands).text := by
    intro on
    rw [bitTest.eq_def]
    split
    · exact hnever
    · have hjoin : Ladder.OneLine (join " AND " (c.operands.map fun p =>
          "(" ++ p ++ " = " ++ (if on then "1" else "0") ++ ")")) := by
        refine oneLine_join (by decide) fun piece hpiece => ?_
        obtain ⟨p, hp, rfl⟩ := List.mem_map.1 hpiece
        have hp := h.operands p hp
        rw [Ladder.OneLine] at hp
        cases on <;> simp [Ladder.OneLine, hp]
      simpa [Test.text, Ladder.OneLine] using hjoin
  have hcomparison : ∀ how, Ladder.OneLine (comparisonTest how c.operands).text := by
    intro how
    rw [comparisonTest.eq_def]
    split
    · next a b hoperands =>
      have ha : Ladder.OneLine a := h.operands a (by simp [hoperands])
      have hb : Ladder.OneLine b := h.operands b (by simp [hoperands])
      rw [Ladder.OneLine] at ha hb
      cases how <;> simp [Ladder.OneLine, Test.text, Comparison.sign, ha, hb]
    · exact hnever
  rcases exists_of_contactTest? ht with ⟨on, rfl⟩ | ⟨how, rfl⟩
  · exact hbits on
  · exact hcomparison how

end ControlLogic.Ladder
