import LiveDex.Proofs.Definition

/-!
What a definition leaves among the files. Nothing is written before the class file is lowered and
the container encoded, then the raw file is created, and the optimized file only after the raw
file was verified. A file that was there before stays as it was, however the definition ends.
-/
namespace LiveDex.Definition

open LiveDex.Action Container

variable {settings : Settings} {currentDirectory root : String} {request : Request}
  {before : Workspace} {record : ClassRecord} {bytes : Bytes} {staged : Volume}

/-- The workspace behind a definition that asked the loader for something. -/
structure Ends (before : Workspace) (load : LoadRequest) (files : Volume) (opened : Nat)
    (after : Workspace) : Prop where
  files : after.files = files
  requests : after.requests = before.requests ++ [load]
  imagesOpened : after.imagesOpened = opened

/-- The workspace behind a staging that created the raw file. -/
structure StagedIn (before : Workspace) (files : Volume) (after : Workspace) : Prop where
  files : after.files = files
  requests : after.requests = before.requests
  imagesOpened : after.imagesOpened = before.imagesOpened

theorem stage_runs_create {tag : String} {bundle : Bundle} (hencode : bundle.encode = .ok bytes)
    (hcreate : before.files.createFile (Staging.artifact root tag).rawPath bytes = .ok staged) :
    ∃ after, (Staging.stage root tag bundle).Runs before (.ok (Staging.artifact root tag)) after ∧
      StagedIn before staged after :=
  ⟨_, Staging.stage_runs hencode hcreate, rfl, rfl, rfl⟩

section Staged

variable (hroot : Staging.rootOf currentDirectory settings = .ok root)
  (hlower : lower .pinned request.source = .ok record)
  (hencode : (bundleOf record).encode = .ok bytes)
  (hcreate : before.files.createFile (Staging.artifact root request.tag).rawPath bytes =
    .ok staged)

include hroot hlower hencode hcreate

theorem define_runs_unloaded {e : Loading.Error}
    (hload : ∀ between : Workspace, between.files = staged →
      (Loading.load (loadRequest root request.tag)).Runs between (.error e) between) :
    ∃ after, (define (.standard settings currentDirectory) request).Runs before
        (.error (.loading request.source.name e)) after ∧
      Ends before (loadRequest root request.tag) staged before.imagesOpened after := by
  obtain ⟨between, hstage, hbetween⟩ := stage_runs_create hencode hcreate
  have hloader := hload
    { between with requests := between.requests ++ [loadRequest root request.tag] } hbetween.files
  refine ⟨_, define_runs (run_runs_unloaded hroot hlower hstage hloader.bind_error), ?_⟩
  exact ⟨hbetween.files, congrArg (· ++ _) hbetween.requests, hbetween.imagesOpened⟩

theorem define_runs_invalid {e : Loading.Error}
    (hverify : Loading.verify (Staging.artifact root request.tag).rawPath bytes = .error e) :
    ∃ after, (define (.standard settings currentDirectory) request).Runs before
        (.error (.loading request.source.name e)) after ∧
      Ends before (loadRequest root request.tag) staged before.imagesOpened after := by
  apply define_runs_unloaded hroot hlower hencode hcreate
  rintro between rfl
  exact Loading.load_runs_invalid (Volume.read_of_createFile hcreate) hverify

variable {bundle : Bundle}
  (hverify : Loading.verify (Staging.artifact root request.tag).rawPath bytes = .ok bundle)

include hverify

theorem define_runs_unwritten {e : Volume.Error}
    (hoptimized : staged.createFile (Staging.artifact root request.tag).optimizedPath
      (Optimized.wrap 0 bytes) = .error e) :
    ∃ after, (define (.standard settings currentDirectory) request).Runs before
        (.error (.loading request.source.name
          (.file (Staging.artifact root request.tag).optimizedPath e))) after ∧
      Ends before (loadRequest root request.tag) staged before.imagesOpened after := by
  have hsize := ((encode_eq_ok_iff _ _).mp hencode).1
  rw [← length_of_encode hencode] at hsize
  apply define_runs_unloaded hroot hlower hencode hcreate
  rintro between rfl
  exact Loading.load_runs_unwritten (Volume.read_of_createFile hcreate) hverify hsize hoptimized

theorem define_runs_loaded {loaded : Volume}
    (hoptimized : staged.createFile (Staging.artifact root request.tag).optimizedPath
      (Optimized.wrap 0 bytes) = .ok loaded) :
    ∃ after, (define (.standard settings currentDirectory) request).Runs before
        (((ContainerImage.ofBundle (before.imagesOpened + 1)
          (Staging.artifact root request.tag).optimizedPath bundle).toImage.resolve
            request.source.name request.loader).mapError .resolution) after ∧
      Ends before (loadRequest root request.tag) loaded (before.imagesOpened + 1) after := by
  have hsize := ((encode_eq_ok_iff _ _).mp hencode).1
  rw [← length_of_encode hencode] at hsize
  obtain ⟨between, hstage, hbetween⟩ := stage_runs_create hencode hcreate
  rw [← hbetween.files] at hoptimized hcreate
  have hload : (Loading.load (loadRequest root request.tag)).Runs
      { between with requests := between.requests ++ [loadRequest root request.tag] } _ _ :=
    Loading.load_runs_ok (Volume.read_of_createFile hcreate) hverify hsize hoptimized
  rw [← hbetween.imagesOpened]
  refine ⟨_, define_runs (run_runs_loaded hroot hlower hstage (standard_loader_runs hload)), ?_⟩
  exact ⟨rfl, congrArg (· ++ _) hbetween.requests, rfl⟩

end Staged

/-- What a definition stages once it gets so far: the paths it takes and the container of the one
record. -/
def Stages (settings : Settings) (currentDirectory : String) (request : Request)
    (artifact : Staging.Artifact) (bytes : Bytes) : Prop :=
  ∃ root record, Staging.rootOf currentDirectory settings = .ok root ∧
    artifact = Staging.artifact root request.tag ∧
    lower .pinned request.source = .ok record ∧ (bundleOf record).encode = .ok bytes

/-- The files behind a definition, told by its result: those before it, and what it created. -/
def Residue (settings : Settings) (currentDirectory : String) (request : Request)
    (before after : Volume) : Except Error ClassObject → Prop
  | .error (.lowering _ _) | .error (.staging _ _) => after = before
  | .error (.loading _ _) =>
    ∃ artifact bytes place, Stages settings currentDirectory request artifact bytes ∧
      before.locate artifact.rawPath = .ok place ∧ before.Creates place bytes after
  | .ok _ | .error (.resolution _) =>
    ∃ artifact bytes rawPlace optimizedPlace staged,
      Stages settings currentDirectory request artifact bytes ∧
      before.locate artifact.rawPath = .ok rawPlace ∧ before.Creates rawPlace bytes staged ∧
      staged.locate artifact.optimizedPath = .ok optimizedPlace ∧
      staged.Creates optimizedPlace ([0x64, 0x65, 0x79, 0x0a, 0x30, 0x33, 0x36, 0x00] ++
        lengthWord 20 ++ lengthWord bytes.length ++ word32 0 ++ bytes) after

theorem Residue.keeps {before after : Volume} {result : Except Error ClassObject}
    (h : Residue settings currentDirectory request before after result) : before.Keeps after := by
  cases result with
  | ok object =>
    obtain ⟨_, _, _, _, _, -, -, hraw, -, hoptimized⟩ := h
    exact hraw.keeps.trans hoptimized.keeps
  | error e =>
    cases e with
    | lowering className cause => exact h ▸ .refl before
    | staging className cause => exact h ▸ .refl before
    | loading className cause =>
      obtain ⟨_, _, _, -, -, hraw⟩ := h
      exact hraw.keeps
    | resolution cause =>
      obtain ⟨_, _, _, _, _, -, -, hraw, -, hoptimized⟩ := h
      exact hraw.keeps.trans hoptimized.keeps

theorem residue_of_runs {after : Workspace} {result : Except Error ClassObject}
    (hruns : (define (.standard settings currentDirectory) request).Runs before result after)
    (h : Residue settings currentDirectory request before.files after.files result) :
    Residue settings currentDirectory request before.files
      ((define (.standard settings currentDirectory) request).leaves before).files
      ((define (.standard settings currentDirectory) request).result before) := by
  rw [hruns.leaves_eq, hruns.result_eq]
  exact h

section Created

variable (hroot : Staging.rootOf currentDirectory settings = .ok root)
  (hlower : lower .pinned request.source = .ok record)
  (hencode : (bundleOf record).encode = .ok bytes)
  (hcreate : before.files.createFile (Staging.artifact root request.tag).rawPath bytes =
    .ok staged)

include hroot hlower hencode hcreate

/-- The raw file is created, and the optimized file unless loading fails before that. -/
theorem residue_of_createFile :
    Residue settings currentDirectory request before.files
      ((define (.standard settings currentDirectory) request).leaves before).files
      ((define (.standard settings currentDirectory) request).result before) := by
  have hstages : Stages settings currentDirectory request
      (Staging.artifact root request.tag) bytes :=
    ⟨root, record, hroot, rfl, hlower, hencode⟩
  obtain ⟨rawPlace, hraw, -, -, -⟩ := Volume.createFile_eq_ok_iff.mp hcreate
  have hcreates := Volume.creates_of_createFile hcreate hraw
  cases hverify : Loading.verify (Staging.artifact root request.tag).rawPath bytes with
  | error e =>
    obtain ⟨after, hruns, hends⟩ := define_runs_invalid hroot hlower hencode hcreate hverify
    exact residue_of_runs hruns ⟨_, bytes, rawPlace, hstages, hraw, hends.files ▸ hcreates⟩
  | ok bundle =>
    cases hoptimized : staged.createFile (Staging.artifact root request.tag).optimizedPath
        (Optimized.wrap 0 bytes) with
    | error e =>
      obtain ⟨after, hruns, hends⟩ :=
        define_runs_unwritten hroot hlower hencode hcreate hverify hoptimized
      exact residue_of_runs hruns ⟨_, bytes, rawPlace, hstages, hraw, hends.files ▸ hcreates⟩
    | ok loaded =>
      obtain ⟨after, hruns, hends⟩ :=
        define_runs_loaded hroot hlower hencode hcreate hverify hoptimized
      obtain ⟨optimizedPlace, hplace, -, -, -⟩ := Volume.createFile_eq_ok_iff.mp hoptimized
      have hboth := Volume.creates_of_createFile hoptimized hplace
      rw [← hends.files] at hboth
      apply residue_of_runs hruns
      -- The class may or may not be found in the image: both ends leave the same files.
      cases (ContainerImage.ofBundle (before.imagesOpened + 1)
          (Staging.artifact root request.tag).optimizedPath bundle).toImage.resolve
            request.source.name request.loader with
      | error e =>
        exact ⟨_, bytes, rawPlace, optimizedPlace, staged, hstages, hraw, hcreates, hplace, hboth⟩
      | ok object =>
        exact ⟨_, bytes, rawPlace, optimizedPlace, staged, hstages, hraw, hcreates, hplace, hboth⟩

end Created

theorem residue_of_define (settings : Settings) (currentDirectory : String) (request : Request)
    (workspace : Workspace) :
    Residue settings currentDirectory request workspace.files
      ((define (.standard settings currentDirectory) request).leaves workspace).files
      ((define (.standard settings currentDirectory) request).result workspace) := by
  cases hroot : Staging.rootOf currentDirectory settings with
  | error e => exact residue_of_runs (define_runs (run_runs_unrooted hroot)) rfl
  | ok root =>
    cases hlower : lower .pinned request.source with
    | error e => exact residue_of_runs (define_runs (run_runs_unlowered hroot hlower)) rfl
    | ok record =>
      cases hencode : (bundleOf record).encode with
      | error e =>
        exact residue_of_runs (define_runs (run_runs_unstaged hroot hlower
          (Staging.stage_runs_unencoded hencode))) rfl
      | ok bytes =>
        cases hcreate : workspace.files.createFile
            (Staging.artifact root request.tag).rawPath bytes with
        | error e =>
          exact residue_of_runs (define_runs (run_runs_unstaged hroot hlower
            (Staging.stage_runs_uncreated hencode hcreate))) rfl
        | ok staged => exact residue_of_createFile hroot hlower hencode hcreate

/-- A definition never touches a file that is there. It creates nothing if it ends before or while
staging, the raw file if loading fails, and the raw and the optimized file if an image was opened.
Without a compile path it ends before it looks at the class file. -/
theorem define_creates_by_result (settings : Settings) (currentDirectory : String)
    (request : Request) (workspace : Workspace) :
    workspace.files.Keeps
      ((define (.standard settings currentDirectory) request).leaves workspace).files ∧
    Residue settings currentDirectory request workspace.files
      ((define (.standard settings currentDirectory) request).leaves workspace).files
      ((define (.standard settings currentDirectory) request).result workspace) ∧
    (settings.compilePath = none →
      (define (.standard settings currentDirectory) request).result workspace =
        .error (.staging request.source.name .notConfigured)) := by
  have hresidue := residue_of_define settings currentDirectory request workspace
  refine ⟨hresidue.keeps, hresidue, ?_⟩
  intro hpath
  have hroot : Staging.rootOf currentDirectory settings = .error .notConfigured := by
    simp only [Staging.rootOf, hpath]
  exact (define_runs (run_runs_unrooted hroot)).result_eq

end LiveDex.Definition
