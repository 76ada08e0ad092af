import LiveDex.Definition
import LiveDex.Proofs.Images
import LiveDex.Proofs.Loading
import LiveDex.Proofs.Lowered
import LiveDex.Proofs.Staging

/-!
The outcome of a definition. Where the staging root is a directory and the names of the staged
files are free, the class file and the name alone decide how a definition ends: lowering may
refuse the class file, loading may refuse a class name in it, and the class must have the name
it was asked for under.
-/
namespace LiveDex.Definition

open LiveDex.Action Container

variable {setup : Setup} {request : Request} {before staged loaded : Workspace} {root : String}

/-- What the loader is asked for. -/
def loadRequest (root tag : String) : LoadRequest :=
  ⟨(Staging.artifact root tag).rawPath, (Staging.artifact root tag).optimizedPath, 0⟩

/-- The bundle of a single record. -/
def bundleOf (record : ClassRecord) : Bundle :=
  ⟨Lowering.Options.pinned.dialect, [record]⟩

/-- A single record always makes a bundle. -/
theorem bundleFor_eq (setup : Setup) (source : ClassSource) :
    bundleFor setup source = (setup.lowering .pinned source).map bundleOf := by
  cases hlower : setup.lowering .pinned source with
  | error e =>
    simp only [bundleFor, hlower]
    rfl
  | ok record =>
    simp only [bundleFor, hlower]
    rfl

theorem bundleFor_eq_ok {source : ClassSource} {record : ClassRecord}
    (h : setup.lowering .pinned source = .ok record) :
    bundleFor setup source = .ok (bundleOf record) := by
  rw [bundleFor_eq, h]
  rfl

theorem define_runs {result : Except Error ClassObject} {after : Workspace}
    (h : (run setup request).Runs before result after) :
    (define setup request).Runs before result
      { after with log := after.log ++ [outcome request result] } := by
  unfold Runs at *
  unfold define
  rw [ExceptT.run_mk, StateT.run_bind, h]
  rfl

theorem run_runs_unrooted {e : Staging.Error}
    (hroot : Staging.rootOf setup.currentDirectory setup.settings = .error e) :
    (run setup request).Runs before (.error (.staging request.source.name e)) before :=
  ((runs_ofExcept hroot).mapError _).bind_error

section Run

variable (hroot : Staging.rootOf setup.currentDirectory setup.settings = .ok root)

include hroot

theorem run_runs_unlowered {e : Lowering.Error}
    (hlower : setup.lowering .pinned request.source = .error e) :
    (run setup request).Runs before (.error (.lowering request.source.name e)) before := by
  have hbundle : bundleFor setup request.source = .error e := by
    rw [bundleFor_eq, hlower]
    rfl
  refine ((runs_ofExcept hroot).mapError _).bind ?_
  exact ((runs_ofExcept hbundle).mapError _).bind_error

variable {record : ClassRecord} (hlower : setup.lowering .pinned request.source = .ok record)

include hlower in
theorem run_runs_unstaged {e : Staging.Error}
    (hstage : (Staging.stage root request.tag (bundleOf record)).Runs before (.error e) staged) :
    (run setup request).Runs before (.error (.staging request.source.name e)) staged := by
  refine ((runs_ofExcept hroot).mapError _).bind ?_
  refine ((runs_ofExcept (bundleFor_eq_ok hlower)).mapError _).bind ?_
  exact (hstage.mapError _).bind_error

variable
  (hstage : (Staging.stage root request.tag (bundleOf record)).Runs
    before (.ok (Staging.artifact root request.tag)) staged)

include hlower hstage

theorem run_runs_unloaded {e : Loading.Error}
    (hload : (setup.loader (loadRequest root request.tag)).Runs
      { staged with requests := staged.requests ++ [loadRequest root request.tag] }
      (.error e) loaded) :
    (run setup request).Runs before (.error (.loading request.source.name e)) loaded := by
  refine ((runs_ofExcept hroot).mapError _).bind ?_
  refine ((runs_ofExcept (bundleFor_eq_ok hlower)).mapError _).bind ?_
  refine (hstage.mapError _).bind ((runs_noteRequest _).bind ?_)
  exact (hload.mapError _).bind_error

theorem run_runs_loaded {image : Image}
    (hload : (setup.loader (loadRequest root request.tag)).Runs
      { staged with requests := staged.requests ++ [loadRequest root request.tag] }
      (.ok image) loaded) :
    (run setup request).Runs before
      ((image.resolve request.source.name request.loader).mapError .resolution)
      { loaded with log := loaded.log ++ [.loaded (Staging.artifact root request.tag).rawPath
        (Staging.artifact root request.tag).optimizedPath] } := by
  refine ((runs_ofExcept hroot).mapError _).bind ?_
  refine ((runs_ofExcept (bundleFor_eq_ok hlower)).mapError _).bind ?_
  refine (hstage.mapError _).bind ((runs_noteRequest _).bind ?_)
  refine (hload.mapError _).bind ((runs_log _).bind ?_)
  exact (runs_ofExcept rfl).mapError _

end Run

theorem distinct_bundleOf (record : ClassRecord) : (bundleOf record).Distinct :=
  List.nodup_singleton _

/-- In a usable directory the container of a record is staged and can be read back, and the
optimized file can be created next to it. -/
theorem stage_runs_of_usable {record : ClassRecord} {tag : String} {bytes : Bytes}
    (husable : Staging.Usable before.files root tag)
    (hencode : (bundleOf record).encode = .ok bytes) :
    ∃ staged, (Staging.stage root tag (bundleOf record)).Runs before
        (.ok (Staging.artifact root tag)) staged ∧
      staged.files.read (Staging.artifact root tag).rawPath = .ok bytes ∧
      staged.imagesOpened = before.imagesOpened ∧
      ∀ optimized, ∃ files, staged.files.createFile (Staging.artifact root tag).optimizedPath
        optimized = .ok files := by
  obtain ⟨files, hcreate, hnext⟩ := husable.createFile bytes
  exact ⟨_, Staging.stage_runs hencode hcreate, Volume.read_of_createFile hcreate, rfl, hnext⟩

/-- The setup with the lowering and the loader of class files. -/
def Setup.standard (settings : Settings) (currentDirectory : String) : Setup :=
  { settings, currentDirectory }

theorem standard_loader_runs {settings : Settings} {currentDirectory : String}
    {load : LoadRequest} {image : ContainerImage} {after : Workspace}
    (h : (Loading.load load).Runs before (.ok image) after) :
    ((Setup.standard settings currentDirectory).loader load).Runs before (.ok image.toImage)
      after :=
  h.bind (runs_pure image.toImage)

section Outcome

variable {settings : Settings} {currentDirectory : String} {record : ClassRecord}
  (hroot : Staging.rootOf currentDirectory settings = .ok root)
  (husable : Staging.Usable before.files root request.tag)
  (hlower : lower .pinned request.source = .ok record)
  (hsize : headerLength + (Tables.ofBundle (bundleOf record)).layout.length < 2 ^ 32)

include hroot husable hlower hsize

theorem result_of_malformed
    (h : ∃ descriptor ∈ record.classTypes, ¬ Descriptor.isTypeDescriptor descriptor) :
    ∃ descriptor ∈ record.classTypes, ¬ Descriptor.isTypeDescriptor descriptor ∧
      (define (.standard settings currentDirectory) request).result before =
        .error (.loading request.source.name (.validation
          (Staging.artifact root request.tag).rawPath (.malformedType descriptor))) := by
  have hencode := (encode_eq_ok_iff (Tables.ofBundle (bundleOf record)) _).mpr ⟨hsize, rfl⟩
  obtain ⟨hdecode, hsmall⟩ := decode_of_encode hencode
  have htypes : (bundleOf record).classes.flatMap ClassRecord.types = record.types :=
    List.append_nil _
  have hbad : ∃ descriptor ∈ (bundleOf record).classes.flatMap ClassRecord.types,
      ¬ Descriptor.isTypeDescriptor descriptor := by
    obtain ⟨descriptor, hmem, hnot⟩ := h
    exact ⟨descriptor, by simp [htypes, ClassRecord.types, hmem], hnot⟩
  obtain ⟨descriptor, hmem, hnot, hresolve⟩ := resolve_ofBundle_malformed hsmall hbad
  rw [htypes] at hmem
  refine ⟨descriptor, ?_, hnot, ?_⟩
  -- The type table lists field types too, but those were checked when the record was made.
  · rcases List.mem_append.mp hmem with hclass | hfield
    · exact hclass
    · obtain ⟨field, hmember, rfl⟩ := List.mem_map.mp hfield
      exact absurd ((lowered_of_lower hlower).fieldTypes field hmember) hnot
  · obtain ⟨staged, hstage, hread, -⟩ := stage_runs_of_usable husable hencode
    have hload : (Loading.load (loadRequest root request.tag)).Runs
        { staged with requests := staged.requests ++ [loadRequest root request.tag] } _ _ :=
      Loading.load_runs_invalid hread (Loading.verify_eq_validation hdecode hresolve)
    exact (define_runs (run_runs_unloaded hroot hlower hstage hload.bind_error)).result_eq

theorem result_of_loadable
    (h : ∀ descriptor ∈ record.classTypes, Descriptor.isTypeDescriptor descriptor) :
    (define (.standard settings currentDirectory) request).result before =
      ((ContainerImage.ofBundle (before.imagesOpened + 1)
        (Staging.artifact root request.tag).optimizedPath (bundleOf record)).toImage.resolve
          request.source.name request.loader).mapError .resolution := by
  have hencode := (encode_eq_ok_iff (Tables.ofBundle (bundleOf record)) _).mpr ⟨hsize, rfl⟩
  obtain ⟨hdecode, hsmall⟩ := decode_of_encode hencode
  have hloadable : ∀ record' ∈ (bundleOf record).classes, Loadable record' := by
    intro record' hrecord
    obtain rfl := List.mem_singleton.mp hrecord
    exact (lowered_of_lower hlower).loadable_iff.mpr h
  have hresolve := (resolve_ofBundle_eq_ok_iff hsmall (distinct_bundleOf record) _).mpr
    ⟨rfl, hloadable⟩
  obtain ⟨staged, hstage, hread, hcount, hnext⟩ := stage_runs_of_usable husable hencode
  obtain ⟨files, hcreate⟩ := hnext (Optimized.wrap 0 _)
  have hload : (Loading.load (loadRequest root request.tag)).Runs
      { staged with requests := staged.requests ++ [loadRequest root request.tag] } _ _ :=
    Loading.load_runs_ok hread (Loading.verify_eq_ok_iff.mpr ⟨_, hdecode, hresolve⟩)
      (by rw [length_of_encode hencode]; exact hsize) hcreate
  rw [← hcount]
  exact (define_runs (run_runs_loaded hroot hlower hstage (standard_loader_runs hload))).result_eq

end Outcome

/-- Where files cannot stand in the way, a definition ends as the class file and the name asked
for determine. -/
theorem define_outcome (settings : Settings) (currentDirectory root : String) (request : Request)
    (workspace : Workspace) (hroot : Staging.rootOf currentDirectory settings = .ok root)
    (husable : Staging.Usable workspace.files root request.tag)
    (hsize : ∀ record, lower .pinned request.source = .ok record →
      headerLength + (Tables.ofBundle (bundleOf record)).layout.length < 2 ^ 32) :
    (∀ e, lower .pinned request.source = .error e →
      (define (.standard settings currentDirectory) request).result workspace =
        .error (.lowering request.source.name e)) ∧
    ∀ record, lower .pinned request.source = .ok record →
      ((∃ descriptor ∈ record.classTypes, ¬ Descriptor.isTypeDescriptor descriptor) →
        ∃ descriptor ∈ record.classTypes, ¬ Descriptor.isTypeDescriptor descriptor ∧
          (define (.standard settings currentDirectory) request).result workspace =
            .error (.loading request.source.name (.validation
              (Staging.artifact root request.tag).rawPath (.malformedType descriptor)))) ∧
      ((∀ descriptor ∈ record.classTypes, Descriptor.isTypeDescriptor descriptor) →
        (define (.standard settings currentDirectory) request).result workspace =
          if record.internalName ≠ ClassName.internal request.source.name then
            .error (.resolution (.classNotFound request.source.name
              (ClassName.internal request.source.name)
              (Staging.artifact root request.tag).optimizedPath))
          else if '/' ∈ request.source.name.toList then
            .error (.resolution (.nameMismatch request.source.name
              (ClassName.dotted (ClassName.internal request.source.name))))
          else .ok
            { name := request.source.name
              internalName := ClassName.internal request.source.name
              descriptor := ClassName.descriptor request.source.name
              superclass := record.superclass.map ClassObject.nameOf
              interfaces := record.interfaces.map ClassObject.nameOf
              accessFlags := record.accessFlags
              fields := record.fields
              methods := record.methods
              sourceFile := record.sourceFile
              definingLoader := request.loader
              imageNumber := workspace.imagesOpened + 1
              imagePath := (Staging.artifact root request.tag).optimizedPath }) := by
  refine ⟨?_, ?_⟩
  · intro e hlower
    exact (define_runs (run_runs_unlowered hroot hlower)).result_eq
  · intro record hlower
    refine ⟨result_of_malformed hroot husable hlower (hsize record hlower), ?_⟩
    intro htypes
    rw [result_of_loadable hroot husable hlower (hsize record hlower) htypes, bundleOf,
      ContainerImage.resolve_single]
    split_ifs with hname hslash
    · rfl
    · rfl
    · obtain ⟨name, hdescriptor⟩ := (lowered_of_lower hlower).classTypes record.descriptor
        List.mem_cons_self
      have hinternal : name = ClassName.internal request.source.name := by
        rw [← not_ne_iff.mp hname, ClassRecord.internalName, hdescriptor,
          ClassName.ofDescriptor_descriptorOf]
      rw [hinternal] at hdescriptor
      rw [ClassObject.ofRecord_of_descriptor hdescriptor hslash]
      rfl

/-- A class file for `a/B` with a superclass, a field and a method with code. -/
def sampleFile : Bytes :=
  [202, 254, 186, 190, 0, 0, 0, 52, 0, 10, 1, 0, 3, 97, 47, 66, 7, 0, 1, 1, 0, 3, 97, 47, 65, 7, 0,
    3, 1, 0, 1, 102, 1, 0, 1, 73, 1, 0, 1, 109, 1, 0, 3, 40, 41, 86, 1, 0, 4, 67, 111, 100, 101, 0,
    33, 0, 2, 0, 4, 0, 0, 0, 1, 0, 2, 0, 5, 0, 6, 0, 0, 0, 1, 0, 1, 0, 7, 0, 8, 0, 1, 0, 9, 0, 0, 0,
    13, 0, 1, 0, 1, 0, 0, 0, 1, 177, 0, 0, 0, 0, 0, 0]

def sampleRecord : ClassRecord where
  descriptor := "La/B;"
  accessFlags := 1
  superclass := some "La/A;"
  fields := [⟨"f", "I", 2⟩]
  methods := [⟨"m", "()V", 1, some ⟨2, 1, 1, 0, [177]⟩⟩]

def sampleRequest : Request where
  source := ⟨"a.B", sampleFile⟩
  loader := "app"
  tag := "x1"

def sampleFiles : Volume :=
  ⟨[(["t"], .directory), (["t", "repl-x0.dex"], .file [])]⟩

theorem define_outcome_sampleRequest :
    (define (.standard { compilePath := some "t/" } "/") sampleRequest).result
        { files := sampleFiles } =
      .ok
        { name := "a.B"
          internalName := "a/B"
          descriptor := "La/B;"
          superclass := some "a.A"
          interfaces := []
          accessFlags := 1
          fields := [⟨"f", "I", 2⟩]
          methods := [⟨"m", "()V", 1, some ⟨2, 1, 1, 0, [177]⟩⟩]
          sourceFile := none
          definingLoader := "app"
          imageNumber := 1
          imagePath := "/t/repl-opt-x1.dex" } := by
  have hlower : lower .pinned sampleRequest.source = .ok sampleRecord := by decide +kernel
  have hroot : Staging.rootOf "/" { compilePath := some "t/" } = .ok "/t/" := by decide
  have husable : Staging.Usable sampleFiles "/t/" sampleRequest.tag :=
    ⟨⟨by decide, by decide⟩, ⟨["t"], by decide, by decide⟩, by decide, by decide⟩
  have hsize : ∀ record, lower .pinned sampleRequest.source = .ok record →
      headerLength + (Tables.ofBundle (bundleOf record)).layout.length < 2 ^ 32 := by
    intro record hrecord
    obtain rfl := Except.ok.inj (hlower.symm.trans hrecord)
    decide +kernel
  have h := ((define_outcome _ _ _ sampleRequest { files := sampleFiles } hroot husable
    hsize).2 sampleRecord hlower).2 (by decide)
  rw [h]
  decide +kernel

end LiveDex.Definition
