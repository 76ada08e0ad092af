import LiveDex.Proofs.Lookup

/-!
How a load can end, and what it leaves. There are five ways: the raw file cannot be read, it is no
container, its tables are not sound, the optimized file cannot be made, or an image is opened. Only
the last one changes anything. The optimized file gives back the container that was verified before
it was written, so it is never the optimized file that is refused.
-/
namespace LiveDex

namespace Volume

/-- A new file can be made at the path: it leads to a place in a directory, nothing is there yet,
and it does not ask for a directory. -/
structure Vacant (volume : Volume) (path : String) (place : List String) : Prop where
  leads : volume.locate path = .ok place
  absent : volume.node? place = none
  named : Path.endsWithSlash path = false

theorem createFile_eq_ok_iff_vacant {volume after : Volume} {path : String} {content : Bytes} :
    volume.createFile path content = .ok after ↔
      ∃ place, volume.Vacant path place ∧ after = ⟨volume.nodes ++ [(place, .file content)]⟩ := by
  rw [createFile_eq_ok_iff]
  constructor
  · rintro ⟨place, hleads, hnamed, habsent, hafter⟩
    exact ⟨place, ⟨hleads, habsent, hnamed⟩, hafter⟩
  · rintro ⟨place, hvacant, hafter⟩
    exact ⟨place, hvacant.leads, hvacant.named, hvacant.absent, hafter⟩

end Volume

namespace Loading

open LiveDex.Action Container

/-- The raw file of a request, and the bundle in it. -/
structure Offers (request : LoadRequest) (before : Workspace) (bytes : Bytes) (tables : Tables)
    (bundle : Bundle) : Prop where
  read : before.files.read request.rawPath = .ok bytes
  decode : Tables.decode bytes = .ok tables
  resolve : tables.resolve = .ok bundle

/-- The ways in which a load can end, each with its result and the workspace it leaves. -/
inductive Ending (request : LoadRequest) (before : Workspace) :
    Except Error ContainerImage → Workspace → Prop
  | unreadable {e : Volume.Error} (hread : before.files.read request.rawPath = .error e) :
    Ending request before (.error (.file request.rawPath e)) before
  | undecodable {bytes : Bytes} {e : DecodeError}
    (hread : before.files.read request.rawPath = .ok bytes)
    (hdecode : Tables.decode bytes = .error e) :
    Ending request before (.error (.decode request.rawPath e)) before
  | unsound {bytes : Bytes} {tables : Tables} {e : ValidationError}
    (hread : before.files.read request.rawPath = .ok bytes)
    (hdecode : Tables.decode bytes = .ok tables) (hresolve : tables.resolve = .error e) :
    Ending request before (.error (.validation request.rawPath e)) before
  | unwritten {bytes : Bytes} {tables : Tables} {bundle : Bundle} {e : Volume.Error}
    (hoffers : Offers request before bytes tables bundle)
    (hcreate : before.files.createFile request.optimizedPath (Optimized.wrap request.flags bytes) =
      .error e) :
    Ending request before (.error (.file request.optimizedPath e)) before
  | opened {bytes : Bytes} {tables : Tables} {bundle : Bundle} {after : Workspace}
    (hoffers : Offers request before bytes tables bundle)
    (hcreate : before.files.createFile request.optimizedPath (Optimized.wrap request.flags bytes) =
      .ok after.files) :
    Ending request before
      (.ok (.ofBundle (before.imagesOpened + 1) request.optimizedPath bundle)) after

theorem load_runs_unreadable {request : LoadRequest} {before : Workspace} {e : Volume.Error}
    (hread : before.files.read request.rawPath = .error e) :
    (load request).Runs before (.error (.file request.rawPath e)) before :=
  ((runs_readFile hread).mapError (Error.file request.rawPath)).bind_error

theorem load_ends (request : LoadRequest) (before : Workspace) :
    Ending request before ((load request).result before) ((load request).leaves before) := by
  have hends {result : Except Error ContainerImage} {after : Workspace}
      (hruns : (load request).Runs before result after) (h : Ending request before result after) :
      Ending request before ((load request).result before) ((load request).leaves before) := by
    rwa [hruns.result_eq, hruns.leaves_eq]
  cases hread : before.files.read request.rawPath with
  | error e => exact hends (load_runs_unreadable hread) (.unreadable hread)
  | ok bytes =>
    cases hdecode : Tables.decode bytes with
    | error e =>
      have hverify : verify request.rawPath bytes = .error (.decode request.rawPath e) := by
        simp only [verify, hdecode]
      exact hends (load_runs_invalid hread hverify) (.undecodable hread hdecode)
    | ok tables =>
      cases hresolve : tables.resolve with
      | error e =>
        exact hends (load_runs_invalid hread (verify_eq_validation hdecode hresolve))
          (.unsound hread hdecode hresolve)
      | ok bundle =>
        have hverify : verify request.rawPath bytes = .ok bundle :=
          verify_eq_ok_iff.mpr ⟨tables, hdecode, hresolve⟩
        have hsize := length_lt_of_decode hdecode
        have hoffers : Offers request before bytes tables bundle := ⟨hread, hdecode, hresolve⟩
        cases hcreate : before.files.createFile request.optimizedPath
            (Optimized.wrap request.flags bytes) with
        | error e =>
          exact hends (load_runs_unwritten hread hverify hsize hcreate) (.unwritten hoffers hcreate)
        | ok files =>
          exact hends (load_runs_ok hread hverify hsize hcreate) (.opened hoffers hcreate)

section Ended

variable {request : LoadRequest} {before after : Workspace}

/-- An image is made of the container that was found in the raw file. -/
theorem Ending.of_ok {image : ContainerImage} (h : Ending request before (.ok image) after) :
    ∃ bytes tables bundle, Offers request before bytes tables bundle ∧
      before.files.createFile request.optimizedPath (Optimized.wrap request.flags bytes) =
        .ok after.files ∧
      image = .ofBundle (before.imagesOpened + 1) request.optimizedPath bundle := by
  cases h with
  | opened hoffers hcreate => exact ⟨_, _, _, hoffers, hcreate, rfl⟩

/-- The paths that an error may give: any for a file that could not be read or written, and that of
the raw file for what is wrong inside a file. -/
def Error.BlamesRaw (request : LoadRequest) : Error → Prop
  | .file _ _ => True
  | .decode path _ | .validation path _ => path = request.rawPath
  | .optimizedHeader _ | .rejected _ => False

theorem Ending.of_error {e : Error} (h : Ending request before (.error e) after) :
    after = before ∧ e.BlamesRaw request := by
  cases h with
  | unreadable hread => exact ⟨rfl, trivial⟩
  | undecodable hread hdecode => exact ⟨rfl, rfl⟩
  | unsound hread hdecode hresolve => exact ⟨rfl, rfl⟩
  | unwritten hoffers hcreate => exact ⟨rfl, trivial⟩

section Offered

variable {bytes bytes' : Bytes} {tables tables' : Tables} {bundle bundle' : Bundle}
  (h : Offers request before bytes tables bundle)

include h

theorem Offers.unique (h' : Offers request before bytes' tables' bundle') :
    bytes = bytes' ∧ tables = tables' ∧ bundle = bundle' := by
  obtain rfl := Except.ok.inj (h.read.symm.trans h'.read)
  obtain rfl := Except.ok.inj (h.decode.symm.trans h'.decode)
  exact ⟨rfl, rfl, Except.ok.inj (h.resolve.symm.trans h'.resolve)⟩

/-- No class is lost between the raw file and the image. -/
theorem Offers.perm_classes (number : ℕ) (path : String) :
    (ContainerImage.ofBundle number path bundle).classes.Perm
      (bundle.classes.map fun record => (record.internalName, record)) := by
  have hnodup := ContainerImage.nodup_internalNames (valid_of_resolve h.resolve)
  rw [ContainerImage.ofBundle, ContainerImage.foldl_insert_of_nodup bundle.classes hnodup]
  exact List.reverse_perm _

end Offered

end Ended

/-- A load succeeds exactly if the raw file holds a sound container and the optimized path is
vacant. It then creates the optimized file and nothing else, and the image has the dialect and the
classes of the raw file. A load that fails changes nothing, and what is wrong inside a file is
always said of the raw one. -/
theorem load_creates_optimized_or_nothing (request : LoadRequest) (before : Workspace) :
    ((∃ image, (load request).result before = .ok image) ↔
      (∃ bytes tables bundle, Offers request before bytes tables bundle) ∧
        ∃ place, before.files.Vacant request.optimizedPath place) ∧
    (∀ image, (load request).result before = .ok image →
      ∃ bytes tables bundle place, Offers request before bytes tables bundle ∧
        bytes.length < 2 ^ 32 ∧ before.files.Vacant request.optimizedPath place ∧
        before.files.Creates place ([0x64, 0x65, 0x79, 0x0a, 0x30, 0x33, 0x36, 0x00] ++
          lengthWord 20 ++ lengthWord bytes.length ++ word32 request.flags ++ bytes)
          ((load request).leaves before).files ∧
        image.dialect = tables.dialect ∧
        image.classes.Perm (bundle.classes.map fun record => (record.internalName, record))) ∧
    ∀ e, (load request).result before = .error e →
      (load request).leaves before = before ∧ e.BlamesRaw request := by
  have hends := load_ends request before
  refine ⟨⟨?_, ?_⟩, ?_, ?_⟩
  · rintro ⟨image, himage⟩
    rw [himage] at hends
    obtain ⟨bytes, tables, bundle, hoffers, hcreate, -⟩ := hends.of_ok
    obtain ⟨place, hvacant, -⟩ := Volume.createFile_eq_ok_iff_vacant.mp hcreate
    exact ⟨⟨bytes, tables, bundle, hoffers⟩, place, hvacant⟩
  · rintro ⟨⟨bytes, tables, bundle, hoffers⟩, place, hvacant⟩
    rw [load_succeeds_iff hoffers.read hoffers.decode hoffers.resolve]
    exact ⟨_, Volume.createFile_eq_ok_iff_vacant.mpr ⟨place, hvacant, rfl⟩⟩
  · intro image himage
    rw [himage] at hends
    obtain ⟨bytes, tables, bundle, hoffers, hcreate, rfl⟩ := hends.of_ok
    obtain ⟨place, hvacant, -⟩ := Volume.createFile_eq_ok_iff_vacant.mp hcreate
    have hdialect := ((tables.resolve_eq_ok_iff bundle).mp hoffers.resolve).2.1.dialect
    exact ⟨bytes, tables, bundle, place, hoffers, length_lt_of_decode hoffers.decode, hvacant,
      Volume.creates_of_createFile hcreate hvacant.leads, hdialect, hoffers.perm_classes _ _⟩
  · intro e he
    rw [he] at hends
    exact hends.of_error

/-- A container is opened beside its raw file, and not in place of it. -/
theorem load_creates_optimized_namesakes :
    (∃ image, (load sampleLoad).result (workspaceOf namesakesContainer) = .ok image ∧
      image.dialect = .v035 ∧ image.classes.length = 2) ∧
    ∃ e, (load { sampleLoad with optimizedPath := sampleLoad.rawPath }).result
        (workspaceOf namesakesContainer) = .error e ∧
      (load { sampleLoad with optimizedPath := sampleLoad.rawPath }).leaves
        (workspaceOf namesakesContainer) = workspaceOf namesakesContainer := by
  have hoffers : Offers sampleLoad (workspaceOf namesakesContainer) namesakesContainer
      (Tables.ofBundle namesakes) namesakes :=
    ⟨read_workspaceOf _, decode_namesakes.1, decode_namesakes.2⟩
  constructor
  · obtain ⟨hsucceeds, hcreates, -⟩ :=
      load_creates_optimized_or_nothing sampleLoad (workspaceOf namesakesContainer)
    obtain ⟨image, himage⟩ := hsucceeds.mpr
      ⟨⟨_, _, _, hoffers⟩, ["t", "o.dex"], rfl, rfl, rfl⟩
    obtain ⟨_, _, _, -, hfound, -, -, -, hdialect, hclasses⟩ := hcreates image himage
    obtain ⟨-, htables, hbundle⟩ := hfound.unique hoffers
    rw [htables, Tables.ofBundle_eq] at hdialect
    rw [hbundle] at hclasses
    exact ⟨image, himage, hdialect, hclasses.length_eq⟩
  · obtain ⟨hsucceeds, -, hfails⟩ := load_creates_optimized_or_nothing
      { sampleLoad with optimizedPath := sampleLoad.rawPath } (workspaceOf namesakesContainer)
    cases hresult : (load { sampleLoad with optimizedPath := sampleLoad.rawPath }).result
        (workspaceOf namesakesContainer) with
    | error e => exact ⟨e, rfl, (hfails e hresult).1⟩
    | ok image =>
      obtain ⟨-, place, hvacant⟩ := hsucceeds.mp ⟨image, hresult⟩
      have hleads : (workspaceOf namesakesContainer).files.locate sampleLoad.rawPath =
          .ok ["t", "b.dex"] := rfl
      obtain rfl := Except.ok.inj (hvacant.leads.symm.trans hleads)
      cases hvacant.absent

end Loading

end LiveDex
