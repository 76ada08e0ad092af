import LiveDex.Proofs.Canonical
import LiveDex.Proofs.Images
import LiveDex.Proofs.Loading

/-!
Classes in loaded images. Nothing in an image keeps two classes apart that have the same internal
name, and nothing there keeps dots out of internal names. Both come from the type table: a class
type that passed it has an internal name without dots, which its descriptor and its qualified name
determine and are determined by. So a loaded image serves exactly the classes of its container,
each under its own name.
-/
namespace LiveDex

open Container

namespace Descriptor

theorem isBaseType_of_isType {rest : List Char} (h : isType ('L' :: rest)) :
    isBaseType ('L' :: rest) := by
  simpa [isType] using h

/-- A class type is the descriptor of a class path. -/
theorem exists_classPath {descriptor : String} (htype : isTypeDescriptor descriptor)
    (hclass : NamesClass descriptor) :
    ∃ path, descriptor = ClassName.descriptorOf path ∧ isClassPath path.toList := by
  obtain ⟨rest, hrest⟩ := List.head?_eq_some_iff.mp hclass
  rw [isTypeDescriptor, hrest] at htype
  have hbase := isBaseType_of_isType htype
  cases rest with
  | nil => simp [isBaseType, primitives] at hbase
  | cons c rest =>
    simp only [isBaseType, Bool.and_eq_true, beq_iff_eq] at hbase
    obtain ⟨hlast, hpath⟩ := hbase
    obtain ⟨front, hfront⟩ := List.getLast?_eq_some_iff.mp hlast
    refine ⟨String.ofList front, ?_, ?_⟩
    · apply String.toList_inj.mp
      simp [hrest, hfront, ClassName.descriptorOf]
    · simpa [hfront] using hpath

theorem dot_notMem_of_isClassPath {path : List Char} (h : isClassPath path) : '.' ∉ path := by
  simp only [isClassPath, Bool.and_eq_true, Bool.not_eq_true', List.contains_eq_mem,
    decide_eq_false_iff_not] at h
  exact h.1.1.2

end Descriptor

theorem ClassName.descriptorOf_inj {first second : String}
    (h : descriptorOf first = descriptorOf second) : first = second := by
  have hback := congrArg ofDescriptor h
  rwa [ofDescriptor_descriptorOf, ofDescriptor_descriptorOf] at hback

/-- The qualified name of a class type leads back to the type. -/
theorem ClassObject.descriptor_nameOf {descriptor : String}
    (htype : Descriptor.isTypeDescriptor descriptor) (hclass : NamesClass descriptor) :
    ClassName.descriptor (nameOf descriptor) = descriptor := by
  obtain ⟨path, rfl, hpath⟩ := Descriptor.exists_classPath htype hclass
  have hdot := Descriptor.dot_notMem_of_isClassPath hpath
  rw [nameOf, ClassName.ofDescriptor_descriptorOf, ClassName.descriptor,
    (ClassName.internal_dotted_eq_iff path).mpr hdot]

/-- An object tells of a class what its record says, and the names in it lead back to the
descriptors of the class, its superclass and its interfaces. -/
structure ClassObject.Presents (object : ClassObject) (record : ClassRecord) : Prop where
  descriptor : object.descriptor = record.descriptor
  accessFlags : object.accessFlags = record.accessFlags
  fields : object.fields = record.fields
  methods : object.methods = record.methods
  sourceFile : object.sourceFile = record.sourceFile
  internal_name : ClassName.internal object.name = object.internalName
  descriptor_name : ClassName.descriptor object.name = object.descriptor
  superclass : object.superclass.map ClassName.descriptor = record.superclass
  interfaces : object.interfaces.map ClassName.descriptor = record.interfaces

namespace Container.Loadable

variable {record : ClassRecord} (h : Loadable record)

include h

theorem descriptor_nameOf {descriptor : String} (hmem : descriptor ∈ record.classTypes) :
    ClassName.descriptor (ClassObject.nameOf descriptor) = descriptor :=
  ClassObject.descriptor_nameOf (h.types descriptor (List.mem_append_left _ hmem))
    (h.classTypes descriptor hmem)

theorem descriptorOf_internalName :
    ClassName.descriptorOf record.internalName = record.descriptor := by
  have hmem : record.descriptor ∈ record.classTypes := List.mem_cons_self
  obtain ⟨path, hpath, -⟩ := Descriptor.exists_classPath
    (h.types _ (List.mem_append_left _ hmem)) (h.classTypes _ hmem)
  rw [ClassRecord.internalName, hpath, ClassName.ofDescriptor_descriptorOf]

theorem internalName_eq_iff (name : String) :
    record.internalName = name ↔ record.descriptor = ClassName.descriptorOf name := by
  rw [← h.descriptorOf_internalName]
  constructor
  · intro heq
    rw [heq]
  · intro heq
    exact ClassName.descriptorOf_inj heq

theorem internal_nameOf :
    ClassName.internal (ClassObject.nameOf record.descriptor) = record.internalName := by
  apply ClassName.descriptorOf_inj
  rw [h.descriptorOf_internalName]
  exact h.descriptor_nameOf List.mem_cons_self

theorem descriptor_eq_of_nameOf_eq {other : ClassRecord} (hother : Loadable other)
    (hname : ClassObject.nameOf record.descriptor = ClassObject.nameOf other.descriptor) :
    record.descriptor = other.descriptor := by
  calc
    record.descriptor = ClassName.descriptor (ClassObject.nameOf record.descriptor) :=
      (h.descriptor_nameOf List.mem_cons_self).symm
    _ = ClassName.descriptor (ClassObject.nameOf other.descriptor) := by rw [hname]
    _ = other.descriptor := hother.descriptor_nameOf List.mem_cons_self

theorem presents_ofRecord (loader : String) (number : ℕ) (path : String) :
    (ClassObject.ofRecord record loader number path).Presents record := by
  have hsuper : (record.superclass.map ClassObject.nameOf).map ClassName.descriptor =
      record.superclass := by
    cases heq : record.superclass with
    | none => rfl
    | some descriptor =>
      have hmem : descriptor ∈ record.classTypes := by simp [ClassRecord.classTypes, heq]
      rw [Option.map_some, Option.map_some, h.descriptor_nameOf hmem]
  have hinterfaces : (record.interfaces.map ClassObject.nameOf).map ClassName.descriptor =
      record.interfaces := by
    rw [List.map_map]
    nth_rewrite 2 [← List.map_id record.interfaces]
    rw [List.map_inj_left]
    intro descriptor hdescriptor
    exact h.descriptor_nameOf (by simp [ClassRecord.classTypes, hdescriptor])
  exact ⟨rfl, rfl, rfl, rfl, rfl, h.internal_nameOf, h.descriptor_nameOf List.mem_cons_self, hsuper,
    hinterfaces⟩

end Container.Loadable

namespace ContainerImage

/-- An image that has the given classes and no others. -/
structure Serves (image : ContainerImage) (classes : List ClassRecord) : Prop where
  size_eq : image.size = classes.length
  found_iff : ∀ name loader, (∃ object, image.find? name loader = some object) ↔
    ∃ record ∈ classes, record.descriptor = ClassName.descriptorOf name
  presents : ∀ name loader object, image.find? name loader = some object →
    ∃ record ∈ classes, record.descriptor = ClassName.descriptorOf name ∧ object.Presents record
  resolve_name : ∀ name loader object, image.find? name loader = some object →
    image.toImage.resolve object.name loader = .ok object
  name_inj : ∀ first second loader object other, image.find? first loader = some object →
    image.find? second loader = some other → object.name = other.name → first = second

section Valid

variable {bundle : Bundle} (hvalid : Valid bundle)

include hvalid

/-- Different classes have different internal names. -/
theorem nodup_internalNames : (bundle.classes.map ClassRecord.internalName).Nodup := by
  have hdescriptors : (bundle.classes.map ClassRecord.internalName).map ClassName.descriptorOf =
      bundle.classes.map ClassRecord.descriptor := by
    rw [List.map_map]
    apply List.map_congr_left
    intro record hrecord
    exact (hvalid.loadable record hrecord).descriptorOf_internalName
  apply List.Nodup.of_map ClassName.descriptorOf
  rw [hdescriptors]
  exact hvalid.distinct

/-- The search of an image finds a class by its descriptor. -/
theorem search_eq_some_iff (name : String) (record : ClassRecord) :
    (bundle.classes.reverse.find? fun record => record.internalName = name) = some record ↔
      record ∈ bundle.classes ∧ record.descriptor = ClassName.descriptorOf name := by
  have hnodup : (bundle.classes.reverse.map ClassRecord.internalName).Nodup := by
    rw [List.map_reverse, List.nodup_reverse]
    exact nodup_internalNames hvalid
  rw [find?_key_eq_some_iff ClassRecord.internalName hnodup, List.mem_reverse]
  apply and_congr_right
  intro hmem
  exact (hvalid.loadable record hmem).internalName_eq_iff name

theorem find?_eq_some_iff (number : ℕ) (path name loader : String) (object : ClassObject) :
    (ofBundle number path bundle).find? name loader = some object ↔
      ∃ record ∈ bundle.classes, record.descriptor = ClassName.descriptorOf name ∧
        .ofRecord record loader number path = object := by
  rw [find?_ofBundle, Option.map_eq_some_iff]
  simp only [search_eq_some_iff hvalid, and_assoc]

/-- A class is found for every name that makes its descriptor, and of these only one is its own. -/
theorem resolve_ofBundle_of_mem (number : ℕ) (path name loader : String) {record : ClassRecord}
    (hmem : record ∈ bundle.classes) (hdescriptor : record.descriptor = ClassName.descriptor name) :
    (ofBundle number path bundle).toImage.resolve name loader =
      if '/' ∈ name.toList then
        .error (.nameMismatch name (ClassName.dotted (ClassName.internal name)))
      else .ok (.ofRecord record loader number path) := by
  have hsearch := (search_eq_some_iff hvalid (ClassName.internal name) record).mpr
    ⟨hmem, hdescriptor⟩
  rw [resolve_ofBundle, hsearch]

theorem resolve_ofBundle_name (number : ℕ) (path loader : String) {record : ClassRecord}
    (hmem : record ∈ bundle.classes) :
    (ofBundle number path bundle).toImage.resolve
        (ClassObject.ofRecord record loader number path).name loader =
      .ok (.ofRecord record loader number path) := by
  have hpresents := (hvalid.loadable record hmem).presents_ofRecord loader number path
  have hslash : '/' ∉ (ClassObject.ofRecord record loader number path).name.toList :=
    ClassName.slash_notMem_dotted _
  rw [resolve_ofBundle_of_mem hvalid number path _ loader hmem hpresents.descriptor_name.symm,
    if_neg hslash]

theorem resolve_ofBundle_of_absent (number : ℕ) (path name loader : String)
    (habsent : ¬ ∃ record ∈ bundle.classes, record.descriptor = ClassName.descriptor name) :
    (ofBundle number path bundle).toImage.resolve name loader =
      .error (.classNotFound name (ClassName.internal name) path) := by
  rw [resolve_ofBundle]
  cases hsearch : bundle.classes.reverse.find? fun record =>
      record.internalName = ClassName.internal name with
  | none => rfl
  | some record =>
    exact absurd ⟨record, (search_eq_some_iff hvalid _ record).mp hsearch⟩ habsent

theorem ofBundle_serves (number : ℕ) (path : String) :
    (ofBundle number path bundle).Serves bundle.classes := by
  have hfind := find?_eq_some_iff hvalid number path
  refine ⟨size_ofBundle number path bundle (nodup_internalNames hvalid), ?_, ?_, ?_, ?_⟩
  · intro name loader
    simp only [hfind]
    constructor
    · intro h
      obtain ⟨object, record, hmem, hdescriptor, -⟩ := h
      exact ⟨record, hmem, hdescriptor⟩
    · intro h
      obtain ⟨record, hmem, hdescriptor⟩ := h
      exact ⟨_, record, hmem, hdescriptor, rfl⟩
  · intro name loader object hobject
    obtain ⟨record, hmem, hdescriptor, rfl⟩ := (hfind name loader object).mp hobject
    exact ⟨record, hmem, hdescriptor,
      (hvalid.loadable record hmem).presents_ofRecord loader number path⟩
  · intro name loader object hobject
    obtain ⟨record, hmem, -, rfl⟩ := (hfind name loader object).mp hobject
    exact resolve_ofBundle_name hvalid number path loader hmem
  · intro first second loader object other hobject hother hname
    obtain ⟨record, hmem, hdescriptor, rfl⟩ := (hfind first loader object).mp hobject
    obtain ⟨record', hmem', hdescriptor', rfl⟩ := (hfind second loader other).mp hother
    have hsame := (hvalid.loadable record hmem).descriptor_eq_of_nameOf_eq
      (hvalid.loadable record' hmem') hname
    apply ClassName.descriptorOf_inj
    rw [← hdescriptor, ← hdescriptor', hsame]

end Valid

end ContainerImage

namespace Loading

open LiveDex.Action

/-- Loading a sound container gives an image as soon as its optimized file can be made, and the
image serves exactly the classes of the container. -/
theorem load_serves_container_classes (request : LoadRequest) (before : Workspace) (bytes : Bytes)
    (tables : Tables) (bundle : Bundle) (hread : before.files.read request.rawPath = .ok bytes)
    (hdecode : Tables.decode bytes = .ok tables) (hresolve : tables.resolve = .ok bundle) :
    ((∃ image, (load request).result before = .ok image) ↔
      ∃ files, before.files.createFile request.optimizedPath
        (Optimized.wrap request.flags bytes) = .ok files) ∧
    ∀ image, (load request).result before = .ok image → image.Serves bundle.classes := by
  refine ⟨load_succeeds_iff hread hdecode hresolve, ?_⟩
  intro image hload
  obtain rfl := eq_ofBundle_of_load hread hdecode hresolve hload
  exact ContainerImage.ofBundle_serves (valid_of_resolve hresolve) _ _

/-- A class with a superclass and an interface, and one of the same simple name. -/
def namesakes : Bundle where
  dialect := .v035
  classes :=
    [{ descriptor := "La/B;", accessFlags := 1, superclass := some "La/A;",
       interfaces := ["Lc/I;"] },
     { descriptor := "LB;" }]

def namesakesContainer : Bytes :=
  sealed (Tables.ofBundle namesakes).dialect (signedPart (Tables.ofBundle namesakes).layout)

/-- A workspace in which one container lies. -/
def workspaceOf (container : Bytes) : Workspace :=
  { files := ⟨[(["t"], .directory), (["t", "b.dex"], .file container)]⟩ }

def sampleLoad : LoadRequest where
  rawPath := "/t/b.dex"
  optimizedPath := "/t/o.dex"
  flags := 0

theorem read_workspaceOf (container : Bytes) :
    (workspaceOf container).files.read sampleLoad.rawPath = .ok container :=
  rfl

theorem createFile_workspaceOf (container content : Bytes) :
    ∃ files, (workspaceOf container).files.createFile sampleLoad.optimizedPath content =
      .ok files :=
  ⟨_, Volume.createFile_eq_ok_iff.mpr ⟨["t", "o.dex"], rfl, rfl, rfl, rfl⟩⟩

theorem decode_namesakes :
    Tables.decode namesakesContainer = .ok (Tables.ofBundle namesakes) ∧
      (Tables.ofBundle namesakes).resolve = .ok namesakes := by
  have hsize : headerLength + (Tables.ofBundle namesakes).layout.length < 2 ^ 32 := by
    decide +kernel
  have hdistinct : namesakes.Distinct := by
    unfold Bundle.Distinct
    decide
  have hvalid : Valid namesakes := ⟨hdistinct, by decide⟩
  exact decode_resolve_of_valid ((encode_eq_ok_iff _ _).mpr ⟨hsize, rfl⟩) hvalid

theorem load_serves_namesakes :
    ∃ image, (load sampleLoad).result (workspaceOf namesakesContainer) = .ok image ∧
      image.size = 2 ∧ ∃ object, image.find? "a/B" "app" = some object ∧
        ClassName.descriptor object.name = "La/B;" ∧
        image.toImage.resolve object.name "app" = .ok object := by
  obtain ⟨hdecode, hresolve⟩ := decode_namesakes
  obtain ⟨hsucceeds, hserves⟩ := load_serves_container_classes sampleLoad
    (workspaceOf namesakesContainer) _ _ _ (read_workspaceOf _) hdecode hresolve
  obtain ⟨image, hload⟩ := hsucceeds.mpr (createFile_workspaceOf _ _)
  have himage := hserves image hload
  obtain ⟨object, hobject⟩ := (himage.found_iff "a/B" "app").mpr ⟨_, List.mem_cons_self, rfl⟩
  obtain ⟨record, -, hdescriptor, hpresents⟩ := himage.presents _ _ object hobject
  refine ⟨image, hload, himage.size_eq, object, hobject, ?_, himage.resolve_name _ _ _ hobject⟩
  rw [hpresents.descriptor_name, hpresents.descriptor, hdescriptor]
  rfl

/-- Whether a loaded image has a class for a qualified name depends on the descriptor made of the
name, and then a slash in the name decides between the class and a mismatch. -/
theorem load_resolve_outcome (request : LoadRequest) (before : Workspace) (bytes : Bytes)
    (tables : Tables) (bundle : Bundle) (image : ContainerImage)
    (hread : before.files.read request.rawPath = .ok bytes)
    (hdecode : Tables.decode bytes = .ok tables) (hresolve : tables.resolve = .ok bundle)
    (hload : (load request).result before = .ok image) (name loader : String) :
    ((∃ object, image.toImage.resolve name loader = .ok object ∧ object.name = name) ↔
      '/' ∉ name.toList ∧
        ∃ record ∈ bundle.classes, record.descriptor = ClassName.descriptor name) ∧
    (image.toImage.resolve name loader =
        .error (.classNotFound name (ClassName.internal name) image.path) ↔
      ¬ ∃ record ∈ bundle.classes, record.descriptor = ClassName.descriptor name) ∧
    (image.toImage.resolve name loader =
        .error (.nameMismatch name (ClassName.dotted (ClassName.internal name))) ↔
      '/' ∈ name.toList ∧
        ∃ record ∈ bundle.classes, record.descriptor = ClassName.descriptor name) := by
  have hvalid := valid_of_resolve hresolve
  obtain rfl := eq_ofBundle_of_load hread hdecode hresolve hload
  by_cases hknown : ∃ record ∈ bundle.classes, record.descriptor = ClassName.descriptor name
  · have hfound := hknown
    obtain ⟨record, hmem, hdescriptor⟩ := hfound
    have houtcome := ContainerImage.resolve_ofBundle_of_mem hvalid (before.imagesOpened + 1)
      request.optimizedPath name loader hmem hdescriptor
    by_cases hslash : '/' ∈ name.toList
    · rw [if_pos hslash] at houtcome
      simp [houtcome, hknown, hslash]
    · rw [if_neg hslash] at houtcome
      have hname : (ClassObject.ofRecord record loader (before.imagesOpened + 1)
          request.optimizedPath).name = name := by
        rw [ClassObject.ofRecord_of_descriptor hdescriptor hslash]
      simp [houtcome, hknown, hslash, hname]
  · have houtcome := ContainerImage.resolve_ofBundle_of_absent hvalid (before.imagesOpened + 1)
      request.optimizedPath name loader hknown
    have hpath : (ContainerImage.ofBundle (before.imagesOpened + 1) request.optimizedPath
        bundle).path = request.optimizedPath := rfl
    simp [houtcome, hknown, hpath]

theorem load_resolve_dotted_name :
    ∃ image object, (load sampleLoad).result (workspaceOf namesakesContainer) = .ok image ∧
      image.toImage.resolve "a.B" "app" = .ok object ∧ object.name = "a.B" := by
  obtain ⟨hdecode, hresolve⟩ := decode_namesakes
  obtain ⟨image, hload⟩ := (load_succeeds_iff (read_workspaceOf _) hdecode hresolve).mpr
    (createFile_workspaceOf _ _)
  have houtcome := load_resolve_outcome sampleLoad (workspaceOf namesakesContainer) _ _ _ image
    (read_workspaceOf _) hdecode hresolve hload "a.B" "app"
  obtain ⟨object, hobject, hname⟩ :=
    houtcome.1.mpr ⟨by decide, _, List.mem_cons_self, by decide +kernel⟩
  exact ⟨image, object, hload, hobject, hname⟩

/-- A name with a slash finds a class in an image loaded from a container, and the class has another
name. -/
theorem load_resolve_slashed_name :
    (load sampleLoad).result (workspaceOf namesakesContainer) =
        .ok (.ofBundle 1 "/t/o.dex" namesakes) ∧
      (ContainerImage.ofBundle 1 "/t/o.dex" namesakes).toImage.resolve "a/B" "app" =
        .error (.nameMismatch "a/B" "a.B") := by
  obtain ⟨hdecode, hresolve⟩ := decode_namesakes
  obtain ⟨image, hload⟩ := (load_succeeds_iff (read_workspaceOf _) hdecode hresolve).mpr
    (createFile_workspaceOf _ _)
  have himage := eq_ofBundle_of_load (read_workspaceOf _) hdecode hresolve hload
  refine ⟨?_, by decide +kernel⟩
  rw [hload, himage]
  rfl

end Loading

end LiveDex
