import ControlLogic.Proofs.Diagram.Sheets

/-!
# What reaches the outputs

A wire brings the value at its source.  The source may be an input reference, an output reference,
an argument that a block passes both ways, or a pin of a block, and a block that takes from the wire
is called with that value.  A wire into an output is written by rules of its own: it has to come
from a block, and what is written is always the pin.

* `intended?` is the assignment that a wire into an output stands for, and `KeepsOutputs` says that
  none of them is missing and that they stand in the order of the wires.
* `AtPin` says that a value is a pin of the block at the source.  `outputAssignment?_eq_some_iff`:
  just these values are written.
* `mem_callArguments`: a block is given the value itself, whatever it is.

`code_outputs` puts them together for a diagram of one sheet.
-/

namespace ControlLogic.Diagram

open Markup StructuredText

/-- Where `g` gives something only if `f` does, a list keeps all that `f` gives exactly if `g` gives
the same. -/
theorem filterMap_sublist_iff {α β : Type} {f g : α → Option β} {l : List α}
    (hgf : ∀ a ∈ l, (g a).isSome = true → (f a).isSome = true) :
    (l.filterMap f).Sublist (l.filterMap g) ↔ ∀ a ∈ l, ∀ b, f a = some b → g a = some b := by
  induction l with
  | nil => simp
  | cons a l ih =>
    obtain ⟨hhead, hrest⟩ := List.forall_mem_cons.1 hgf
    -- `g` gives no more than `f`, so that nothing of what `f` gives can stand further back
    have hlen : (l.filterMap g).length ≤ (l.filterMap f).length := by
      simpa only [List.length_filterMap_eq_countP] using List.countP_mono_left hrest
    rw [List.forall_mem_cons, ← ih hrest]
    cases hf : f a with
    | none =>
      have hg : g a = none := by
        rw [hf] at hhead
        simpa using hhead
      rw [List.filterMap_cons_none hf, List.filterMap_cons_none hg]
      simp
    | some b =>
      have hlong : ¬ (b :: l.filterMap f).Sublist (l.filterMap g) := fun h => by
        have := h.length_le
        rw [List.length_cons] at this
        omega
      rw [List.filterMap_cons_some hf]
      cases hg : g a with
      | none =>
        rw [List.filterMap_cons_none hg]
        simp [hlong]
      | some c =>
        rw [List.filterMap_cons_some hg, List.cons_sublist_cons']
        simp [hlong, eq_comm]

/-- A pin that is given counts unless its name is empty. -/
theorem filter_pin {given : Option String} {pin : String} (hpin : given = some pin)
    (hne : pin ≠ "") : given.filter (· ≠ "") = some pin := by
  simp [hpin, hne]

/-- A statement that is an assignment. -/
def isAssignment : Statement → Bool
  | .assign _ _ => true
  | _ => false

namespace Network

variable (n : Network)

/-! ## What a wire stands for -/

/-- The assignment that a wire into an output stands for: the output takes the value at the source
of the wire. -/
def intended? (w : Wire) : Option Statement :=
  (n.outputs.get? w.target).bind fun output => (n.sourceValue? w).map fun value =>
    .assign output value

/-- No wire into an output is lost: the statements hold what the wires into outputs stand for, in
the order of the wires. -/
def KeepsOutputs (body : List Statement) : Prop :=
  (n.wires.filterMap n.intended?).Sublist body

/-- The value is the pin of the block at the source of the wire. -/
def AtPin (w : Wire) (value : String) : Prop :=
  ∃ block pin, n.blocks.get? w.source = some block ∧ w.sourcePin = some pin ∧ pin ≠ "" ∧
    value = block.operand ++ "." ++ pin

variable {n}

theorem intended?_eq_some {w : Wire} {s : Statement} : n.intended? w = some s ↔
    ∃ output value, n.outputs.get? w.target = some output ∧ n.sourceValue? w = some value ∧
      s = .assign output value := by
  simp only [intended?, Option.bind_eq_some_iff, Option.map_eq_some_iff]
  constructor
  · rintro ⟨output, houtput, value, hvalue, rfl⟩
    exact ⟨output, value, houtput, hvalue, rfl⟩
  · rintro ⟨output, value, houtput, hvalue, rfl⟩
    exact ⟨output, houtput, value, hvalue, rfl⟩

/-- What is written for a wire into an output is the pin of a block. -/
theorem outputAssignment?_eq_some {w : Wire} {s : Statement} : n.outputAssignment? w = some s ↔
    ∃ output value, n.outputs.get? w.target = some output ∧ n.AtPin w value ∧
      s = .assign output value := by
  rw [outputAssignment?]
  constructor
  · intro h
    split at h
    · rename_i block output pin hblock houtput hpin
      obtain ⟨hpin, hne⟩ := Option.filter_eq_some_iff.1 hpin
      cases h
      exact ⟨output, _, houtput, ⟨block, pin, hblock, hpin, by simpa using hne, rfl⟩, rfl⟩
    · cases h
  · rintro ⟨output, _, houtput, ⟨block, pin, hblock, hpin, hne, rfl⟩, rfl⟩
    rw [hblock, houtput, filter_pin hpin hne]

/-- The source of a wire from a pin of a block has a value. -/
theorem AtPin.exists_sourceValue {w : Wire} {value : String} (h : n.AtPin w value) :
    ∃ v, n.sourceValue? w = some v := by
  obtain ⟨block, pin, hblock, hpin, hne, -⟩ := h
  rw [sourceValue?, hblock, filter_pin hpin hne]
  cases n.inputs.get? w.source with
  | some operand => exact ⟨operand, rfl⟩
  | none =>
    cases n.outputs.get? w.source with
    | some operand => exact ⟨operand, rfl⟩
    | none => exact ⟨_, rfl⟩

/-- For a wire into an output the value at its source is written exactly if it is a pin. -/
theorem outputAssignment?_eq_some_iff {w : Wire} {output value : String}
    (houtput : n.outputs.get? w.target = some output) :
    n.outputAssignment? w = some (.assign output value) ↔ n.AtPin w value := by
  rw [outputAssignment?_eq_some]
  constructor
  · rintro ⟨_, _, -, hpin, heq⟩
    cases heq
    exact hpin
  · intro hpin
    exact ⟨output, value, houtput, hpin, rfl⟩

/-! ## What a body keeps -/

/-- Calls hold no assignment, so what the wires stand for is kept by the assignments alone. -/
theorem keepsOutputs_statements_iff (order : List String) :
    n.KeepsOutputs (n.statements order) ↔
      ∀ w ∈ n.wires, ∀ s, n.intended? w = some s → n.outputAssignment? w = some s := by
  have hcalls : (order.map n.call).filter isAssignment = [] := by
    simp [List.filter_eq_nil_iff, call, isAssignment]
  have hintended : ∀ s ∈ n.wires.filterMap n.intended?, isAssignment s = true := by
    intro s hs
    obtain ⟨w, -, hw⟩ := List.mem_filterMap.1 hs
    obtain ⟨_, _, -, -, rfl⟩ := intended?_eq_some.1 hw
    rfl
  have hwritten : ∀ s ∈ n.wires.filterMap n.outputAssignment?, isAssignment s = true := by
    intro s hs
    obtain ⟨w, -, hw⟩ := List.mem_filterMap.1 hs
    obtain ⟨_, _, -, -, rfl⟩ := outputAssignment?_eq_some.1 hw
    rfl
  have hassignments : n.KeepsOutputs (n.statements order) ↔
      (n.wires.filterMap n.intended?).Sublist (n.wires.filterMap n.outputAssignment?) := by
    constructor
    · intro h
      have := h.filter isAssignment
      rwa [statements, List.filter_append, hcalls, List.nil_append,
        List.filter_eq_self.2 hintended, List.filter_eq_self.2 hwritten] at this
    · intro h
      exact h.trans (List.sublist_append_right _ _)
  rw [hassignments]
  refine filterMap_sublist_iff fun w _ hw => ?_
  obtain ⟨s, hs⟩ := Option.isSome_iff_exists.1 hw
  obtain ⟨output, value, houtput, hpin, -⟩ := outputAssignment?_eq_some.1 hs
  obtain ⟨v, hv⟩ := hpin.exists_sourceValue
  exact Option.isSome_iff_exists.2 ⟨_, intended?_eq_some.2 ⟨output, v, houtput, hv, rfl⟩⟩

/-- All outputs are kept exactly if every wire into one brings a pin of a block. -/
theorem keepsOutputs_iff_atPin (order : List String) :
    n.KeepsOutputs (n.statements order) ↔ ∀ w ∈ n.wires, ∀ output value,
      n.outputs.get? w.target = some output → n.sourceValue? w = some value → n.AtPin w value := by
  rw [keepsOutputs_statements_iff]
  refine forall₂_congr fun w _ => ⟨fun h output value houtput hvalue => ?_, fun h s hs => ?_⟩
  · refine (outputAssignment?_eq_some_iff houtput).1 (h _ ?_)
    exact intended?_eq_some.2 ⟨output, value, houtput, hvalue, rfl⟩
  · obtain ⟨output, value, houtput, hvalue, rfl⟩ := intended?_eq_some.1 hs
    exact (outputAssignment?_eq_some_iff houtput).2 (h output value houtput hvalue)

/-! ## What a block is given -/

/-- The value at the source of a wire does not depend on where the wire leads. -/
theorem sourceValue?_congr {v w : Wire} (hsource : v.source = w.source)
    (hpin : v.sourcePin = w.sourcePin) : n.sourceValue? v = n.sourceValue? w := by
  simp only [sourceValue?, hsource, hpin]

theorem mem_callArguments {v : Wire} (hv : v ∈ n.wires) {pin value : String}
    (hpin : v.targetPin = some pin) (hne : pin ≠ "") (hvalue : n.sourceValue? v = some value) :
    pin ++ " := " ++ value ∈ n.callArguments v.target := by
  refine List.mem_filterMap.2 ⟨v, hv, ?_⟩
  rw [filter_pin hpin hne, hvalue]
  simp

/-- Every block is called. -/
theorem call_mem_statements {id : String} {block : Block} (hblock : n.blocks.get? id = some block) :
    .invoke block.operand (n.callArguments id) ∈ n.statements n.executionOrder := by
  have hcontains : n.blocks.contains id = true := by rw [Table.contains, hblock]; rfl
  have hmem : id ∈ n.executionOrder := by
    rw [executionOrder_eq_orderBy]
    exact (n.mem_orderBy n.mem_suppliers id).2 hcontains
  refine List.mem_append_left _ (List.mem_map.2 ⟨id, hmem, ?_⟩)
  rw [call, hblock]
  rfl

variable (n) in
/-- Every block that takes from the source of a wire is called with the value. -/
def Delivers (body : List Statement) (w : Wire) (value : String) : Prop :=
  ∀ v ∈ n.wires, v.source = w.source → v.sourcePin = w.sourcePin →
    ∀ block, n.blocks.get? v.target = some block → ∀ pin, v.targetPin = some pin → pin ≠ "" →
      ∃ arguments, .invoke block.operand arguments ∈ body ∧ pin ++ " := " ++ value ∈ arguments

theorem delivers_statements {w : Wire} {value : String} (hvalue : n.sourceValue? w = some value) :
    n.Delivers (n.statements n.executionOrder) w value := by
  intro v hv hsource hsourcePin block hblock pin hpin hne
  refine ⟨_, call_mem_statements hblock, mem_callArguments hv hpin hne ?_⟩
  rw [sourceValue?_congr hsource hsourcePin, hvalue]

end Network

/-! ## The text of one sheet -/

/-- The network that a sheet shows. -/
def networkOf (sheet : Element) : Network := ({} : Network).addSheet sheet

/-- The statements of a diagram with one sheet. -/
def bodyOf (sheet : Element) : List Statement :=
  (networkOf sheet).statements (networkOf sheet).executionOrder

theorem statementsUnder_singleton (sheet : Element) :
    statementsUnder [sheet] 1 = bodyOf sheet := rfl

theorem code_of_one_sheet {content sheet : Element}
    (hsheet : content.childrenNamed "Sheet" = [sheet]) : code content =
      if bodyOf sheet = [] then "// No FBD content to translate"
      else Text.join "\n" ("// Sheet 1" :: (bodyOf sheet).map Statement.text) := by
  have hcode : code content = (readSheets [sheet]).text := by rw [code, read, hsheet, readSheets]
  rw [hcode]
  by_cases hbody : bodyOf sheet = []
  · have hread := readSheets_take (Nat.le_refl [sheet].length)
    rw [List.take_length] at hread
    rw [if_pos hbody, hread, Reading.text]
    simp [addedLines, statementsUnder_singleton, hbody]
  · have hlength : 0 < [sheet].length := Nat.one_pos
    rw [if_neg hbody, text_readSheets hlength hbody]
    simp only [List.length_singleton, List.range_one, List.flatMap_singleton, Nat.zero_add,
      linesUnder, statementsUnder_singleton, if_neg hbody]
    rfl

/-- What a diagram of one sheet does with the wires into its outputs.  Its text is a header and the
statements below it.  The value at the source of such a wire is written exactly if it is a pin of
the block there, while the blocks that take from the same source are given the value in any case.
So no wire into an output is lost exactly if all of them bring pins. -/
theorem code_outputs (content : Element) {sheet : Element} {n : Network}
    (hsheet : content.childrenNamed "Sheet" = [sheet]) (hn : networkOf sheet = n) :
    (code content = if bodyOf sheet = [] then "// No FBD content to translate"
      else Text.join "\n" ("// Sheet 1" :: (bodyOf sheet).map Statement.text)) ∧
    (∀ w ∈ n.wires, ∀ output value, n.outputs.get? w.target = some output →
      n.sourceValue? w = some value →
        (n.outputAssignment? w = some (.assign output value) ↔ n.AtPin w value) ∧
        n.Delivers (bodyOf sheet) w value) ∧
    (n.KeepsOutputs (bodyOf sheet) ↔ ∀ w ∈ n.wires, ∀ output value,
      n.outputs.get? w.target = some output → n.sourceValue? w = some value →
        n.AtPin w value) := by
  subst hn
  refine ⟨code_of_one_sheet hsheet, fun w _ output value houtput hvalue => ⟨?_, ?_⟩, ?_⟩
  · exact Network.outputAssignment?_eq_some_iff houtput
  · exact Network.delivers_statements hvalue
  · exact Network.keepsOutputs_iff_atPin _

/-- A pump whose speed is shown, and taken by a fan. -/
def pumpSheet : Element where
  tag := "Sheet"
  children := [
    .leaf "AddOnInstruction" [("ID", "1"), ("Name", "Motor"), ("Operand", "Pump")],
    .leaf "AddOnInstruction" [("ID", "2"), ("Name", "Motor"), ("Operand", "Fan")],
    .leaf "ORef" [("ID", "3"), ("Operand", "Gauge")],
    .leaf "Wire" [("FromID", "1"), ("FromParam", "Speed"), ("ToID", "3")],
    .leaf "Wire" [("FromID", "1"), ("FromParam", "Speed"), ("ToID", "2"), ("ToParam", "Pace")]]

theorem code_outputs_pumpSheet :
    (networkOf pumpSheet).KeepsOutputs (bodyOf pumpSheet) ∧
    ∃ arguments, .invoke "Fan" arguments ∈ bodyOf pumpSheet ∧
      "Pace := Pump.Speed" ∈ arguments := by
  obtain ⟨-, hwires, hkept⟩ :=
    code_outputs { tag := "FBDContent", children := [pumpSheet] } rfl rfl
  have hshown := (hwires ⟨"1", "3", some "Speed", none⟩ (.head _) "Gauge" "Pump.Speed" rfl rfl).2
  refine ⟨hkept.2 ?_, ?_⟩
  · intro w hw output value houtput hvalue
    rcases List.mem_cons.1 hw with rfl | hw
    · cases hvalue
      exact ⟨_, _, rfl, rfl, by decide, rfl⟩
    · -- the other wire leads to the fan, which is no output
      have hfan : (networkOf pumpSheet).outputs.get? "2" = none := rfl
      rw [List.mem_singleton.1 hw, hfan] at houtput
      cases houtput
  · exact hshown ⟨"1", "2", some "Speed", some "Pace"⟩ (.tail _ (.head _)) rfl rfl _ rfl "Pace" rfl
      (by decide)

/-- The same with an argument behind the pin, and with a lamp that an input switches. -/
def driveSheet : Element where
  tag := "Sheet"
  children := [
    .leaf "IRef" [("ID", "0"), ("Operand", "Start")],
    { tag := "AddOnInstruction"
      attributes := Table.ofList [("ID", "1"), ("Name", "Motor"), ("Operand", "Pump")]
      children := [.leaf "InOutParameter" [("Name", "Speed"), ("Argument", "Drive")]] },
    .leaf "AddOnInstruction" [("ID", "2"), ("Name", "Motor"), ("Operand", "Fan")],
    .leaf "ORef" [("ID", "3"), ("Operand", "Gauge")],
    .leaf "ORef" [("ID", "4"), ("Operand", "Lamp")],
    .leaf "Wire" [("FromID", "0"), ("ToID", "4")],
    .leaf "Wire" [("FromID", "1"), ("FromParam", "Speed"), ("ToID", "3")],
    .leaf "Wire" [("FromID", "1"), ("FromParam", "Speed"), ("ToID", "2"), ("ToParam", "Pace")]]

/-- The lamp is not switched, and the gauge is set to the pin while the fan is given the
argument. -/
theorem lamp_lost_and_gauge_changed :
    (networkOf driveSheet).wires.filterMap (networkOf driveSheet).intended? =
      [.assign "Lamp" "Start", .assign "Gauge" "Drive"] ∧
    ¬ (networkOf driveSheet).KeepsOutputs (bodyOf driveSheet) ∧
    code { tag := "FBDContent", children := [driveSheet] } =
      "// Sheet 1\nPump();\nFan(Pace := Drive);\nGauge := Pump.Speed;" := by
  have hintended : (networkOf driveSheet).wires.filterMap (networkOf driveSheet).intended? =
      [.assign "Lamp" "Start", .assign "Gauge" "Drive"] := by decide
  have hbody : bodyOf driveSheet = [.invoke "Pump" [], .invoke "Fan" ["Pace := Drive"],
      .assign "Gauge" "Pump.Speed"] := by decide +kernel
  refine ⟨hintended, ?_, by decide +kernel⟩
  rw [Network.KeepsOutputs, hintended, hbody]
  intro hkept
  have hlamp := hkept.subset List.mem_cons_self
  simp at hlamp

end ControlLogic.Diagram
