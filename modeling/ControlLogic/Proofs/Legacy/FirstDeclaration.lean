import ControlLogic.Legacy.Names
import ControlLogic.Proofs.OrderedSet.Refinement
import ControlLogic.Text.Sorted

/-!
# The first declaration wins

Names are declared while the sources of several controllers are read one after the other.  A name
that is declared already is passed over, so that every collection tells of the first declaration:
the names in order, and under each name what was given with it.

* `FirstWins` says this of one table, and `FirstWins.pass` is the step that all four tables make.
* `Holds` says it of all collections at once.  `Holds.take` is one step, and `holds_run` a whole
  run.
* `extends_run`: what is declared stays as it is, whatever comes later.
-/

namespace ControlLogic.Legacy

/-! ## Tables in which the first entry wins -/

section FirstEntry

variable {γ : Type} {key value : γ → String}

/-- The table has the keys of a list, each once and in order, and under each key the value of the
first entry that has it. -/
structure FirstWins (key value : γ → String) (t : Table String String) (l : List γ) : Prop where
  keys : t.keys = (l.map key).eraseDups
  get : ∀ k, t.get? k = (l.find? (key · = k)).map value

theorem eraseDups_append_singleton (l : List String) (k : String) :
    (l ++ [k]).eraseDups = if k ∈ l then l.eraseDups else l.eraseDups ++ [k] := by
  have hsingle : [k].eraseDups = [k] := rfl
  rw [List.eraseDups_append, List.removeAll]
  split
  · rename_i hk
    simp [hk]
  · rename_i hk
    simp [hk, hsingle]

theorem FirstWins.empty : FirstWins key value Table.empty [] :=
  ⟨rfl, fun _ => rfl⟩

theorem FirstWins.mem_keys {t : Table String String} {l : List γ} (h : FirstWins key value t l)
    {k : String} : k ∈ t.keys ↔ k ∈ l.map key := by
  rw [h.keys, List.mem_eraseDups]

/-- An entry with a key that is there is passed over. -/
theorem FirstWins.skip {t : Table String String} {l : List γ} (h : FirstWins key value t l) {c : γ}
    (hc : key c ∈ l.map key) : FirstWins key value t (l ++ [c]) := by
  refine ⟨?_, fun k => ?_⟩
  · rw [List.map_append, List.map_singleton, eraseDups_append_singleton, if_pos hc, h.keys]
  · rw [h.get, List.find?_append]
    cases hfind : l.find? (key · = k) with
    | some d => rfl
    | none =>
      -- The key of the entry is there, so nothing is asked of it here.
      have hne : key c ≠ k := by
        rintro rfl
        obtain ⟨d, hd, hkey⟩ := List.mem_map.1 hc
        simpa [hkey] using List.find?_eq_none.1 hfind d hd
      simp [hne]

/-- An entry with a new key is written last. -/
theorem FirstWins.write {t : Table String String} {l : List γ} (h : FirstWins key value t l) {c : γ}
    (hc : key c ∉ l.map key) : FirstWins key value (t.insert (key c) (value c)) (l ++ [c]) := by
  refine ⟨?_, fun k => ?_⟩
  · rw [Table.keys_insert, if_neg fun hk => hc (h.mem_keys.1 hk), h.keys, List.map_append,
      List.map_singleton, eraseDups_append_singleton, if_neg hc]
  · rw [Table.get?_insert, h.get, List.find?_append]
    by_cases hk : key c = k
    · have hnone : l.find? (key · = k) = none := by
        refine List.find?_eq_none.2 fun d hd hkey => hc ?_
        exact List.mem_map.2 ⟨d, hd, (of_decide_eq_true hkey).trans hk.symm⟩
      simp [hk, hnone]
    · simp [hk]

end FirstEntry

namespace Names

/-! ## Steps -/

/-- One step in the reading of sources. -/
inductive Step where
  | var (name type origin : String)
  | struct (name origin : String)
  | function (name origin : String)
  | nextController
  deriving DecidableEq

/-- Takes a step. -/
def take (s : Names) : Step → Names
  | .var name type origin => s.addVariable name type origin
  | .struct name origin => s.addStruct name origin
  | .function name origin => s.addFunction name origin
  | .nextController => s.nextController

/-- The names after steps from the beginning. -/
def run (steps : List Step) : Names :=
  steps.foldl take {}

/-- A declared variable, by its name in lower case. -/
structure Variable where
  key : String
  type : String
  origin : String
  deriving DecidableEq

/-- The variable that a step declares. -/
def Step.variable? : Step → Option Variable
  | .var name type origin => some ⟨Text.lower name, type, origin⟩
  | _ => none

/-- The structure that a step declares, with its origin. -/
def Step.struct? : Step → Option (String × String)
  | .struct name origin => some (name, origin)
  | _ => none

/-- The function that a step declares, with its origin. -/
def Step.function? : Step → Option (String × String)
  | .function name origin => some (name, origin)
  | _ => none

/-- The variables that steps declare, in order. -/
def declaredVariables (steps : List Step) : List Variable := steps.filterMap Step.variable?

/-- The structures that steps declare, in order. -/
def structs (steps : List Step) : List (String × String) := steps.filterMap Step.struct?

/-- The functions that steps declare, in order. -/
def functions (steps : List Step) : List (String × String) := steps.filterMap Step.function?

/-! ## What holds after steps -/

/-- All collections tell of the first of the declared variables, structures and functions, and
`resets` controllers have been left. -/
structure Holds (s : Names) (vars : List Variable) (structs functions : List (String × String))
    (resets : Nat) : Prop where
  varNames : s.varNames = .listed (vars.map (·.key)).eraseDups
  dataTypes : FirstWins Variable.key Variable.type s.dataTypes vars
  varOrigin : FirstWins Variable.key Variable.origin s.varOrigin vars
  structNames : s.structNames = (structs.map (·.1)).eraseDups
  structOrigin : FirstWins Prod.fst Prod.snd s.structOrigin structs
  fbdNames : s.fbdNames = (functions.map (·.1)).eraseDups
  fbdOrigin : FirstWins Prod.fst Prod.snd s.fbdOrigin functions
  controller : s.controller = 1 + resets

theorem contains_listed (l : List String) (k : String) :
    (OrderedSet.listed l.eraseDups).contains k = true ↔ k ∈ l := by
  rw [OrderedSet.contains, OrderedSet.position?_listed, ← OrderedSet.any_eq_isSome_place?,
    List.any_beq', List.contains_iff_mem, List.mem_eraseDups]

theorem add_listed_of_not_mem {l : List String} {k : String} (h : k ∉ l) :
    ((OrderedSet.listed l.eraseDups).add k).1 = .listed (l ++ [k]).eraseDups := by
  have habsent : ∀ a ∈ l.eraseDups, (a == k) = false := by
    intro a ha
    rw [beq_eq_false_iff_ne]
    rintro rfl
    exact h (List.mem_eraseDups.1 ha)
  rw [OrderedSet.add_listed, OrderedSet.withKey_of_absent habsent, eraseDups_append_singleton,
    if_neg h]

/-- Nothing is declared at the beginning. -/
theorem holds_empty : Holds {} [] [] [] 0 where
  varNames := rfl
  dataTypes := .empty
  varOrigin := .empty
  structNames := rfl
  structOrigin := .empty
  fbdNames := rfl
  fbdOrigin := .empty
  controller := rfl

section Steps

variable {s : Names} {vars : List Variable} {structs functions : List (String × String)}
  {resets : Nat}

theorem Holds.addVariable (h : Holds s vars structs functions resets)
    (name type origin : String) :
    Holds (s.addVariable name type origin) (vars ++ [⟨Text.lower name, type, origin⟩]) structs
      functions resets := by
  have hkeys : (vars ++ [(⟨Text.lower name, type, origin⟩ : Variable)]).map (·.key) =
      vars.map (·.key) ++ [Text.lower name] := List.map_append
  have hcontains : s.varNames.contains (Text.lower name) = true ↔
      Text.lower name ∈ vars.map (·.key) := by
    rw [h.varNames, contains_listed]
  rw [Names.addVariable]
  by_cases hname : Text.lower name ∈ vars.map (·.key)
  · rw [if_pos (hcontains.2 hname)]
    refine { h with varNames := ?_, dataTypes := h.dataTypes.skip hname,
                    varOrigin := h.varOrigin.skip hname }
    rw [hkeys, eraseDups_append_singleton, if_pos hname, h.varNames]
  · rw [if_neg (mt hcontains.1 hname)]
    let c : Variable := ⟨Text.lower name, type, origin⟩
    refine { h with varNames := ?_, dataTypes := h.dataTypes.write (c := c) hname,
                    varOrigin := h.varOrigin.write (c := c) hname }
    rw [h.varNames, hkeys, add_listed_of_not_mem hname]

theorem Holds.addStruct (h : Holds s vars structs functions resets) (name origin : String) :
    Holds (s.addStruct name origin) vars (structs ++ [(name, origin)]) functions resets := by
  have hkeys : (structs ++ [(name, origin)]).map (·.1) = structs.map (·.1) ++ [name] :=
    List.map_append
  have hcontains : s.structNames.contains name = true ↔ name ∈ structs.map (·.1) := by
    rw [h.structNames, List.contains_iff_mem, List.mem_eraseDups]
  rw [Names.addStruct]
  by_cases hname : name ∈ structs.map (·.1)
  · rw [if_pos (hcontains.2 hname)]
    refine { h with structNames := ?_, structOrigin := h.structOrigin.skip hname }
    rw [hkeys, eraseDups_append_singleton, if_pos hname, h.structNames]
  · rw [if_neg (mt hcontains.1 hname)]
    refine { h with structNames := ?_,
                    structOrigin := h.structOrigin.write (c := (name, origin)) hname }
    rw [h.structNames, hkeys, eraseDups_append_singleton, if_neg hname]

theorem Holds.addFunction (h : Holds s vars structs functions resets) (name origin : String) :
    Holds (s.addFunction name origin) vars structs (functions ++ [(name, origin)]) resets := by
  have hkeys : (functions ++ [(name, origin)]).map (·.1) = functions.map (·.1) ++ [name] :=
    List.map_append
  have hcontains : s.fbdNames.contains name = true ↔ name ∈ functions.map (·.1) := by
    rw [h.fbdNames, List.contains_iff_mem, List.mem_eraseDups]
  rw [Names.addFunction]
  by_cases hname : name ∈ functions.map (·.1)
  · rw [if_pos (hcontains.2 hname)]
    refine { h with fbdNames := ?_, fbdOrigin := h.fbdOrigin.skip hname }
    rw [hkeys, eraseDups_append_singleton, if_pos hname, h.fbdNames]
  · rw [if_neg (mt hcontains.1 hname)]
    refine { h with fbdNames := ?_,
                    fbdOrigin := h.fbdOrigin.write (c := (name, origin)) hname }
    rw [h.fbdNames, hkeys, eraseDups_append_singleton, if_neg hname]

theorem Holds.nextController (h : Holds s vars structs functions resets) :
    Holds s.nextController vars structs functions (resets + 1) :=
  { h with controller := congrArg (· + 1) h.controller }

end Steps

/-- The names tell of the first declarations of the steps. -/
def HoldsAfter (s : Names) (steps : List Step) : Prop :=
  Holds s (declaredVariables steps) (structs steps) (functions steps) (steps.count .nextController)

theorem HoldsAfter.take {s : Names} {steps : List Step} (h : HoldsAfter s steps) (step : Step) :
    HoldsAfter (s.take step) (steps ++ [step]) := by
  have hvars : declaredVariables (steps ++ [step]) =
      declaredVariables steps ++ step.variable?.toList := by
    cases step <;> simp [declaredVariables, Step.variable?]
  have hstructs : structs (steps ++ [step]) = structs steps ++ step.struct?.toList := by
    cases step <;> simp [structs, Step.struct?]
  have hfunctions : functions (steps ++ [step]) = functions steps ++ step.function?.toList := by
    cases step <;> simp [functions, Step.function?]
  rw [HoldsAfter, hvars, hstructs, hfunctions, List.count_append]
  cases step with
  | var name type origin =>
    simpa [Names.take, Step.variable?, Step.struct?, Step.function?] using
      Holds.addVariable h name type origin
  | struct name origin =>
    simpa [Names.take, Step.variable?, Step.struct?, Step.function?] using
      Holds.addStruct h name origin
  | function name origin =>
    simpa [Names.take, Step.variable?, Step.struct?, Step.function?] using
      Holds.addFunction h name origin
  | nextController =>
    simpa [Names.take, Step.variable?, Step.struct?, Step.function?] using Holds.nextController h

theorem holdsAfter_foldl {s : Names} {before : List Step} (h : HoldsAfter s before)
    (after : List Step) : HoldsAfter (after.foldl take s) (before ++ after) := by
  induction after generalizing s before with
  | nil => rwa [List.append_nil]
  | cons step after ih => simpa using ih (h.take step)

theorem holdsAfter_run (steps : List Step) : HoldsAfter (run steps) steps :=
  have hstart : HoldsAfter {} [] := holds_empty
  holdsAfter_foldl hstart steps

/-! ## What stays -/

/-- All that is declared in `s` is declared in `t` as well, in the same order and with the same
types and origins. -/
structure Extends (s t : Names) : Prop where
  varNames : s.varNames.items <+: t.varNames.items
  dataTypes : ∀ k v, s.dataTypes.get? k = some v → t.dataTypes.get? k = some v
  varOrigin : ∀ k v, s.varOrigin.get? k = some v → t.varOrigin.get? k = some v
  structNames : s.structNames <+: t.structNames
  structOrigin : ∀ k v, s.structOrigin.get? k = some v → t.structOrigin.get? k = some v
  fbdNames : s.fbdNames <+: t.fbdNames
  fbdOrigin : ∀ k v, s.fbdOrigin.get? k = some v → t.fbdOrigin.get? k = some v

theorem eraseDups_prefix_append (a b : List String) : a.eraseDups <+: (a ++ b).eraseDups := by
  rw [List.eraseDups_append]
  exact List.prefix_append _ _

/-- A table in which the first entry wins keeps its values when more entries come. -/
theorem get?_of_firstWins {γ : Type} {key value : γ → String} {t u : Table String String}
    {a b : List γ} (ht : FirstWins key value t a) (hu : FirstWins key value u (a ++ b))
    (k v : String) (h : t.get? k = some v) : u.get? k = some v := by
  rw [ht.get] at h
  obtain ⟨c, hc, rfl⟩ := Option.map_eq_some_iff.1 h
  rw [hu.get, List.find?_append, hc]
  rfl

/-- What is declared stays as it is, whatever steps follow. -/
theorem extends_run (before after : List Step) : Extends (run before) (run (before ++ after)) := by
  have hbefore := holdsAfter_run before
  have hafter := holdsAfter_run (before ++ after)
  rw [HoldsAfter, declaredVariables, structs, functions, List.filterMap_append,
    List.filterMap_append, List.filterMap_append] at hafter
  refine ⟨?_, get?_of_firstWins hbefore.dataTypes hafter.dataTypes,
    get?_of_firstWins hbefore.varOrigin hafter.varOrigin, ?_,
    get?_of_firstWins hbefore.structOrigin hafter.structOrigin, ?_,
    get?_of_firstWins hbefore.fbdOrigin hafter.fbdOrigin⟩
  · rw [hbefore.varNames, hafter.varNames, List.map_append]
    exact eraseDups_prefix_append _ _
  · rw [hbefore.structNames, hafter.structNames, List.map_append]
    exact eraseDups_prefix_append _ _
  · rw [hbefore.fbdNames, hafter.fbdNames, List.map_append]
    exact eraseDups_prefix_append _ _

theorem run_nextController (steps : List Step) :
    run (steps ++ [.nextController]) =
      { run steps with controller := (run steps).controller + 1 } := by
  rw [run, List.foldl_append]
  rfl

/-- However declarations of variables, structures and functions follow each other over any number of
controllers, the first declaration of a name wins in every collection, variables being told apart
without regard to case.  The controllers are counted, and to go on to the next changes nothing that
is declared, nor does anything that comes later. -/
theorem run_keeps_first (steps : List Step) :
    (run steps).varNames.items = ((declaredVariables steps).map (·.key)).eraseDups ∧
      (run steps).varNames.items.Nodup ∧
      (run steps).dataTypes.keys = (run steps).varNames.items ∧
      (run steps).varOrigin.keys = (run steps).varNames.items ∧
      (∀ k, (run steps).dataTypes.get? k =
        ((declaredVariables steps).find? (·.key = k)).map (·.type)) ∧
      (∀ k, (run steps).varOrigin.get? k =
        ((declaredVariables steps).find? (·.key = k)).map (·.origin)) ∧
      (run steps).structNames = ((structs steps).map (·.1)).eraseDups ∧
      (run steps).structOrigin.keys = (run steps).structNames ∧
      (∀ k, (run steps).structOrigin.get? k = ((structs steps).find? (·.1 = k)).map (·.2)) ∧
      (run steps).fbdNames = ((functions steps).map (·.1)).eraseDups ∧
      (run steps).fbdOrigin.keys = (run steps).fbdNames ∧
      (∀ k, (run steps).fbdOrigin.get? k = ((functions steps).find? (·.1 = k)).map (·.2)) ∧
      (run steps).controller = 1 + steps.count .nextController ∧
      run (steps ++ [.nextController]) =
        { run steps with controller := (run steps).controller + 1 } ∧
      ∀ after, Extends (run steps) (run (steps ++ after)) := by
  have h := holdsAfter_run steps
  have hitems : (run steps).varNames.items = ((declaredVariables steps).map (·.key)).eraseDups := by
    rw [h.varNames]
    rfl
  refine ⟨hitems, ?_, ?_, ?_, h.dataTypes.get, h.varOrigin.get, h.structNames, ?_,
    h.structOrigin.get, h.fbdNames, ?_, h.fbdOrigin.get, h.controller, run_nextController steps,
    extends_run steps⟩
  · rw [hitems]
    exact Text.nodup_eraseDups _
  · rw [hitems, h.dataTypes.keys]
  · rw [hitems, h.varOrigin.keys]
  · rw [h.structNames, h.structOrigin.keys]
  · rw [h.fbdNames, h.fbdOrigin.keys]

end Names

end ControlLogic.Legacy
