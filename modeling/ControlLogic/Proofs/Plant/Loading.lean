import ControlLogic.Plant.Load
import ControlLogic.Proofs.Table

/-!
# What is kept of the files that a plant is loaded from

A plant is loaded file by file, and the project of each file is written under a name.

* `fileName` is that name, and `controllerName_eq` says that it depends on the path alone, also
  where it is taken from the project: the readers take it from the path as well.
* `add_of_holds` is the step for one file, and `exists_load` the run over all of them: what is
  loaded is the table of the names with the projects.
* `load_keeps_last` draws from it what is kept.
-/

namespace ControlLogic

namespace Plant

/-! ## Names -/

/-- The name that a file of a form is kept under. -/
def Form.fileName (path : String) : Form → String
  | .exchange | .openPlc => Path.stem path
  | .scl => Source.Scl.controllerName path
  | .ladder | .cpp => Path.name path

/-- The name that a file is kept under: for documents and for sources in Structured Text its name
without the ending, for sources in structured control language the same unless they are in a known
directory, which then gives the name, and for all others its whole name. -/
@[irreducible] def fileName (path : String) : String :=
  -- irreducible, or comparing two names opens the tables of lower case letters
  match Form.ofSuffix? (Path.suffix path) with
  | some form => form.fileName path
  | none => ""

theorem fileName_of_form {path : String} {form : Form}
    (h : Form.ofSuffix? (Path.suffix path) = some form) : fileName path = form.fileName path := by
  unfold fileName
  rw [h]

theorem name_of_lad_load {files : Files} {path : String} {p : Project}
    (h : Source.Lad.load files path = .ok p) : p.controller.name = Path.name path := by
  rw [Source.Lad.load] at h
  split at h
  · split at h
    · cases h
    · cases h
    · cases h
      rfl
    · cases h
  · cases h
    rfl

theorem name_of_cpp_load {files : Files} {path : String} {p : Project}
    (h : Source.Cpp.load files path = .ok p) : p.controller.name = Path.name path := by
  rw [Source.Cpp.load] at h
  split at h
  · cases h
  · rename_i c _
    cases hread : Source.Cpp.readAnyText path c with
    | error e =>
      rw [hread] at h
      cases h
    | ok text =>
      rw [hread] at h
      cases h
      rfl

theorem name_of_scl_load {files : Files} {path : String} {table : Option String} {p : Project}
    (h : Source.Scl.load files path table = .ok p) :
    p.controller.name = Source.Scl.controllerName path := by
  rw [Source.Scl.load] at h
  cases hread : files.readLenient path with
  | error e =>
    rw [hread] at h
    cases h
  | ok text =>
    rw [hread] at h
    cases h
    rfl

/-- The name of a controller depends on the path of its file alone. -/
theorem controllerName_eq {files : Files} {overlay : Option String} {path : String} {form : Form}
    {p : Project} (h : loadProject files overlay path form = .ok p) :
    controllerName path p form = form.fileName path := by
  rw [loadProject.eq_def] at h
  cases form with
  | exchange => rfl
  | openPlc => rfl
  | scl =>
    rw [controllerName, Form.fileName]
    exact name_of_scl_load h
  | ladder =>
    rw [controllerName, Form.fileName]
    exact name_of_lad_load h
  | cpp =>
    rw [controllerName, Form.fileName]
    exact name_of_cpp_load h

/-! ## Loading -/

/-- The file has the ending of a known form and holds the project in it. -/
def Holds (files : Files) (overlays : List (String × String)) (path : String) (p : Project) :
    Prop :=
  ∃ form, Form.ofSuffix? (Path.suffix path) = some form ∧
    loadProject files (overlayFor? overlays path) path form = .ok p

/-- One more file writes its project under its name. -/
theorem add_of_holds {files : Files} {overlays : List (String × String)} {path : String}
    {p : Project} (h : Holds files overlays path p) (l : Loading) :
    ∃ missing, l.add files overlays path =
      .ok ⟨⟨l.plant.controllers.insert (fileName path) p⟩, missing⟩ := by
  obtain ⟨form, hform, hload⟩ := h
  have hname : controllerName path p form = fileName path := by
    rw [controllerName_eq hload, fileName_of_form hform]
  refine ⟨if form = .exchange ∧ overlayFor? overlays path = none then
    l.missing ++ [Path.stem path] else l.missing, ?_⟩
  unfold Loading.add
  rw [hform]
  simp only [hload, hname, bind, Except.bind, pure, Except.pure]

theorem exists_foldlM_add {files : Files} {overlays : List (String × String)}
    {paths : List String} {project : String → Project}
    (h : ∀ path ∈ paths, Holds files overlays path (project path)) (l : Loading) :
    ∃ l', paths.foldlM (Loading.add files overlays) l = .ok l' ∧
      l'.plant.controllers = (paths.map fun path => (fileName path, project path)).foldl
        (fun t e => t.insert e.1 e.2) l.plant.controllers := by
  induction paths generalizing l with
  | nil => exact ⟨l, rfl, rfl⟩
  | cons path paths ih =>
    obtain ⟨missing, hadd⟩ := add_of_holds (h path List.mem_cons_self) l
    obtain ⟨l', hload, htable⟩ := ih (fun path hpath => h path (List.mem_cons_of_mem _ hpath))
      ⟨⟨l.plant.controllers.insert (fileName path) (project path)⟩, missing⟩
    refine ⟨l', ?_, htable⟩
    rw [List.foldlM_cons, hadd]
    exact hload

/-- Files that hold projects are loaded into the table of their names and projects. -/
theorem exists_load {files : Files} {overlays : List (String × String)} {paths : List String}
    {project : String → Project} (h : ∀ path ∈ paths, Holds files overlays path (project path)) :
    ∃ l, load files paths overlays = .ok l ∧
      l.plant.controllers =
        Table.ofList (paths.map fun path => (fileName path, project path)) :=
  exists_foldlM_add h {}

/-- A plant is loaded from all files that hold projects, and keeps one of them for each name.
Under a name stands the project of the last file with it, so that a project is replaced if a later
file has the same name, and there is one entry for each file exactly if no two files have the same
name. -/
theorem load_keeps_last (files : Files) (overlays : List (String × String)) (paths : List String)
    (project : String → Project)
    (h : ∀ path ∈ paths, Holds files overlays path (project path)) :
    ∃ l, load files paths overlays = .ok l ∧
      l.plant.controllers.keys.Nodup ∧
      (∀ name, name ∈ l.plant.controllers.keys ↔ ∃ path ∈ paths, fileName path = name) ∧
      (∀ before path after, paths = before ++ path :: after →
        (∀ later ∈ after, fileName later ≠ fileName path) →
        l.plant.controllers.get? (fileName path) = some (project path)) ∧
      (l.plant.controllers.size = paths.length ↔ (paths.map fileName).Nodup) := by
  obtain ⟨l, hload, htable⟩ := exists_load h
  refine ⟨l, hload, ?_⟩
  rw [htable]
  refine ⟨Table.nodup_keys_ofList _, fun name => ?_, ?_, ?_⟩
  · rw [← Table.contains_iff_mem_keys, Table.contains_ofList]
    simp
  · rintro before path after rfl hlater
    have hnot : fileName path ∉
        (after.map fun path => (fileName path, project path)).map (·.1) := by
      simpa using hlater
    rw [List.map_append, List.map_cons, Table.get?_ofList_append_cons _ hnot]
  · have hsize := Table.size_ofList_eq_iff (paths.map fun path => (fileName path, project path))
    rwa [List.length_map, List.map_map] at hsize

/-- Two sources of one station, in the directory that it is known by, and one of another. -/
def stationFiles : Files := Table.ofList [
  ("TP/Pump.scl", .text "LINE.RUN := 1;"),
  ("TP/Valve.scl", .text "VALVE.OPEN := LINE.RUN;"),
  ("Tank.st", .text "TANK.FULL := 0;")]

/-- What is in them. -/
def stationProject (path : String) : Project :=
  if path = "TP/Pump.scl" then Source.Scl.project "Siemens_TP" "LINE.RUN := 1;" []
  else if path = "TP/Valve.scl" then Source.Scl.project "Siemens_TP" "VALVE.OPEN := LINE.RUN;" []
  else Source.OpenPlc.project "Tank" "TANK.FULL := 0;"

theorem holds_of_scl {files : Files} {path name text : String}
    (hform : Form.ofSuffix? (Path.suffix path) = some .scl)
    (hname : Source.Scl.controllerName path = name) (htable : tagTable? files path = none)
    (htext : files.readLenient path = .ok text) :
    Holds files [] path (Source.Scl.project name text []) := by
  refine ⟨.scl, hform, ?_⟩
  rw [loadProject, Source.Scl.load, htext, htable, hname]
  rfl

theorem holds_pump : Holds stationFiles [] "TP/Pump.scl" (stationProject "TP/Pump.scl") :=
  holds_of_scl (by decide) (by decide) (by decide) rfl

theorem holds_valve : Holds stationFiles [] "TP/Valve.scl" (stationProject "TP/Valve.scl") :=
  holds_of_scl (by decide) (by decide) (by decide) rfl

theorem holds_tank : Holds stationFiles [] "Tank.st" (stationProject "Tank.st") := by
  have htext : stationFiles.read "Tank.st" = .ok "TANK.FULL := 0;" := rfl
  have hstem : Path.stem "Tank.st" = "Tank" := by decide
  refine ⟨.openPlc, by decide, ?_⟩
  rw [loadProject, Source.OpenPlc.load, htext, hstem]
  rfl

theorem load_keeps_last_station :
    (∀ path ∈ ["TP/Pump.scl", "TP/Valve.scl", "Tank.st"],
      Holds stationFiles [] path (stationProject path)) ∧
    ∃ l, load stationFiles ["TP/Pump.scl", "TP/Valve.scl", "Tank.st"] [] = .ok l ∧
      l.plant.controllers.get? "Siemens_TP" = some (stationProject "TP/Valve.scl") ∧
      l.plant.controllers.get? "Tank" = some (stationProject "Tank.st") ∧
      l.plant.controllers.size ≠ 3 := by
  have hholds : ∀ path ∈ ["TP/Pump.scl", "TP/Valve.scl", "Tank.st"],
      Holds stationFiles [] path (stationProject path) := by
    simpa using ⟨holds_pump, holds_valve, holds_tank⟩
  have hpump : fileName "TP/Pump.scl" = "Siemens_TP" := by decide +kernel
  have hvalve : fileName "TP/Valve.scl" = "Siemens_TP" := by decide +kernel
  have htank : fileName "Tank.st" = "Tank" := by decide +kernel
  obtain ⟨l, hload, -, -, hlast, hsize⟩ :=
    load_keeps_last stationFiles [] ["TP/Pump.scl", "TP/Valve.scl", "Tank.st"] stationProject hholds
  refine ⟨hholds, l, hload, ?_, ?_, ?_⟩
  · rw [← hvalve]
    refine hlast ["TP/Pump.scl"] "TP/Valve.scl" ["Tank.st"] rfl ?_
    simp [hvalve, htank]
  · rw [← htank]
    exact hlast ["TP/Pump.scl", "TP/Valve.scl"] "Tank.st" [] rfl (by simp)
  · intro hthree
    have hnodup := hsize.1 hthree
    simp [hpump, hvalve] at hnodup

/-- Two sources of a known directory are loaded, and only the second is kept. -/
theorem first_source_replaced :
    (∀ path ∈ ["TP/Pump.scl", "TP/Valve.scl"],
      Holds stationFiles [] path (stationProject path)) ∧
    ∃ l, load stationFiles ["TP/Pump.scl", "TP/Valve.scl"] [] = .ok l ∧
      l.plant.controllers.entries = [("Siemens_TP", stationProject "TP/Valve.scl")] := by
  have hholds : ∀ path ∈ ["TP/Pump.scl", "TP/Valve.scl"],
      Holds stationFiles [] path (stationProject path) := by
    simpa using ⟨holds_pump, holds_valve⟩
  have hpump : fileName "TP/Pump.scl" = "Siemens_TP" := by decide +kernel
  have hvalve : fileName "TP/Valve.scl" = "Siemens_TP" := by decide +kernel
  obtain ⟨l, hload, htable⟩ := exists_load hholds
  refine ⟨hholds, l, hload, ?_⟩
  rw [htable, List.map_cons, List.map_cons, List.map_nil, hpump, hvalve]
  rfl

end Plant

end ControlLogic
