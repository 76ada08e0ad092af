import LiveDex.Container.Validation
import LiveDex.Proofs.Assembly
import Mathlib.Data.List.Forall2

/-!
What tables denote. An index denotes a text or a type by what stands at its position, an entry
denotes a record part by part, and tables denote a bundle when the type table is sound and the
entries denote its records in order. Resolving tables succeeds exactly when they denote a bundle
without repeated classes, and returns that bundle.
-/
namespace LiveDex.Container

section Steps

variable {ε α β : Type}

theorem except_bind_eq_ok_iff (x : Except ε α) (f : α → Except ε β) (b : β) :
    (x >>= f) = .ok b ↔ ∃ a, x = .ok a ∧ f a = .ok b := by
  cases x with
  | error e => simp [bind, Except.bind]
  | ok a => simp [bind, Except.bind]

theorem except_pure_eq_ok_iff (a b : α) : (pure a : Except ε α) = .ok b ↔ b = a := by
  change Except.ok a = Except.ok b ↔ _
  rw [Except.ok.injEq, eq_comm]

theorem except_check_eq_ok_iff (p : Prop) [Decidable p] (e : ε) (k : Unit → Except ε β) (b : β) :
    (if p then Except.error e >>= k else k ()) = .ok b ↔ ¬ p ∧ k () = .ok b := by
  by_cases hp : p
  · simp [hp, bind, Except.bind]
  · simp [hp]

theorem mapM_eq_ok_iff (f : α → Except ε β) (items : List α) (results : List β) :
    items.mapM f = .ok results ↔ List.Forall₂ (fun a b => f a = .ok b) items results := by
  induction items generalizing results with
  | nil =>
    rw [List.mapM_nil, except_pure_eq_ok_iff, List.forall₂_nil_left_iff]
  | cons a items ih =>
    rw [List.mapM_cons, except_bind_eq_ok_iff, List.forall₂_cons_left_iff]
    constructor
    · rintro ⟨b, hb, hrest⟩
      obtain ⟨bs, hbs, hpure⟩ := (except_bind_eq_ok_iff _ _ _).mp hrest
      exact ⟨b, bs, hb, (ih bs).mp hbs, (except_pure_eq_ok_iff _ _).mp hpure⟩
    · rintro ⟨b, bs, hb, hbs, rfl⟩
      exact ⟨b, hb, (except_bind_eq_ok_iff _ _ _).mpr ⟨bs, (ih bs).mpr hbs, rfl⟩⟩

theorem forM_eq_ok_iff (f : α → Except ε Unit) (items : List α) :
    items.forM f = .ok () ↔ ∀ a ∈ items, f a = .ok () := by
  induction items with
  | nil => simp [except_pure_eq_ok_iff]
  | cons a items ih =>
    change (f a >>= fun _ => items.forM f) = .ok () ↔ _
    rw [except_bind_eq_ok_iff, List.forall_mem_cons]
    constructor
    · rintro ⟨⟨⟩, ha, hrest⟩
      exact ⟨ha, ih.mp hrest⟩
    · rintro ⟨ha, hrest⟩
      exact ⟨(), ha, ih.mpr hrest⟩

theorem forM_eq_ok_or_error (f : α → Except ε Unit) (items : List α) :
    items.forM f = .ok () ∨ ∃ a ∈ items, ∃ e, f a = .error e ∧ items.forM f = .error e := by
  induction items with
  | nil => exact Or.inl rfl
  | cons a items ih =>
    change (f a >>= fun _ => items.forM f) = .ok () ∨
      ∃ b ∈ a :: items, ∃ e, f b = .error e ∧ (f a >>= fun _ => items.forM f) = .error e
    cases ha : f a with
    | error e => exact Or.inr ⟨a, List.mem_cons_self, e, ha, rfl⟩
    | ok =>
      rcases ih with hok | ⟨b, hb, e, he, hrest⟩
      · exact Or.inl hok
      · exact Or.inr ⟨b, List.mem_cons_of_mem a hb, e, he, hrest⟩

end Steps

namespace Tables

/-- The string at an index. -/
def text? (tables : Tables) (index : UInt32) : Option String :=
  tables.strings[index.toNat]?

/-- The descriptor of the type at an index. -/
def descriptor? (tables : Tables) (index : UInt32) : Option String :=
  tables.types[index.toNat]?.bind tables.text?

def DenotesText (tables : Tables) (index : UInt32) (text : String) : Prop :=
  tables.text? index = some text

def DenotesType (tables : Tables) (index : UInt32) (descriptor : String) : Prop :=
  tables.descriptor? index = some descriptor

end Tables

/-- No index denotes nothing, and any other what it denotes by itself. -/
def Optionally (denotes : UInt32 → String → Prop) (index : UInt32) : Option String → Prop
  | none => index = noIndex
  | some text => index ≠ noIndex ∧ denotes index text

structure FieldEntry.Denotes (tables : Tables) (entry : FieldEntry) (field : FieldRecord) :
    Prop where
  name : tables.DenotesText entry.name field.name
  type : tables.DenotesType entry.type field.typeDescriptor
  accessFlags : field.accessFlags = entry.accessFlags

structure MethodEntry.Denotes (tables : Tables) (entry : MethodEntry) (method : MethodRecord) :
    Prop where
  name : tables.DenotesText entry.name method.name
  proto : tables.DenotesText entry.proto method.proto
  accessFlags : method.accessFlags = entry.accessFlags
  code : method.code = entry.code

structure ClassEntry.Denotes (tables : Tables) (entry : ClassEntry) (record : ClassRecord) :
    Prop where
  type : tables.DenotesType entry.type record.descriptor
  accessFlags : record.accessFlags = entry.accessFlags
  superclass : Optionally tables.DenotesType entry.superclass record.superclass
  interfaces : List.Forall₂ tables.DenotesType entry.interfaces record.interfaces
  sourceFile : Optionally tables.DenotesText entry.sourceFile record.sourceFile
  fields : List.Forall₂ (FieldEntry.Denotes tables) entry.fields record.fields
  methods : List.Forall₂ (MethodEntry.Denotes tables) entry.methods record.methods

/-- Tables that denote the bundle part by part. -/
structure Tables.Denotes (tables : Tables) (bundle : Bundle) : Prop where
  dialect : bundle.dialect = tables.dialect
  classes : List.Forall₂ (ClassEntry.Denotes tables) tables.classes bundle.classes

section Unique

variable {tables : Tables}

theorem denotesText_unique : Relator.RightUnique tables.DenotesText := by
  intro index text text' h h'
  exact Option.some.inj (h.symm.trans h')

theorem denotesType_unique : Relator.RightUnique tables.DenotesType := by
  intro index text text' h h'
  exact Option.some.inj (h.symm.trans h')

theorem optionally_unique {denotes : UInt32 → String → Prop}
    (hdenotes : Relator.RightUnique denotes) : Relator.RightUnique (Optionally denotes) := by
  intro index o o' h h'
  cases o with
  | none =>
    cases o' with
    | none => rfl
    | some text' => exact absurd h h'.1
  | some text =>
    cases o' with
    | none => exact absurd h' h.1
    | some text' => rw [hdenotes h.2 h'.2]

theorem FieldEntry.denotes_unique : Relator.RightUnique (FieldEntry.Denotes tables) := by
  rintro entry ⟨name, type, flags⟩ ⟨name', type', flags'⟩ h h'
  obtain rfl := denotesText_unique h.name h'.name
  obtain rfl := denotesType_unique h.type h'.type
  obtain rfl := h.accessFlags.trans h'.accessFlags.symm
  rfl

theorem MethodEntry.denotes_unique : Relator.RightUnique (MethodEntry.Denotes tables) := by
  rintro entry ⟨name, proto, flags, code⟩ ⟨name', proto', flags', code'⟩ h h'
  obtain rfl := denotesText_unique h.name h'.name
  obtain rfl := denotesText_unique h.proto h'.proto
  obtain rfl := h.accessFlags.trans h'.accessFlags.symm
  obtain rfl := h.code.trans h'.code.symm
  rfl

theorem ClassEntry.denotes_unique : Relator.RightUnique (ClassEntry.Denotes tables) := by
  rintro entry ⟨descriptor, flags, superclass, interfaces, sourceFile, fields, methods⟩
    ⟨descriptor', flags', superclass', interfaces', sourceFile', fields', methods'⟩ h h'
  obtain rfl := denotesType_unique h.type h'.type
  obtain rfl := h.accessFlags.trans h'.accessFlags.symm
  obtain rfl := optionally_unique denotesType_unique h.superclass h'.superclass
  obtain rfl := denotesType_unique.forall₂ h.interfaces h'.interfaces
  obtain rfl := optionally_unique denotesText_unique h.sourceFile h'.sourceFile
  obtain rfl := FieldEntry.denotes_unique.forall₂ h.fields h'.fields
  obtain rfl := MethodEntry.denotes_unique.forall₂ h.methods h'.methods
  rfl

/-- Tables denote one bundle at most. -/
theorem Tables.denotes_unique : Relator.RightUnique Tables.Denotes := by
  rintro tables ⟨dialect, classes⟩ ⟨dialect', classes'⟩ h h'
  obtain rfl := h.dialect.trans h'.dialect.symm
  obtain rfl := ClassEntry.denotes_unique.forall₂ h.classes h'.classes
  rfl

end Unique

/-- A descriptor of class form, as far as its first character tells. -/
def NamesClass (descriptor : String) : Prop :=
  descriptor.toList.head? = some 'L'

/-- The registers of the code hold its arguments. -/
def HoldsArguments (code : Option CodeItem) : Prop :=
  ∀ item ∈ code, item.ins ≤ item.registers

instance (descriptor : String) : Decidable (NamesClass descriptor) :=
  inferInstanceAs (Decidable (descriptor.toList.head? = some 'L'))

instance (code : Option CodeItem) : Decidable (HoldsArguments code) :=
  inferInstanceAs (Decidable (∀ item ∈ code, item.ins ≤ item.registers))

/-- What a record must be like beyond being denoted. -/
structure Admissible (record : ClassRecord) : Prop where
  classTypes : ∀ descriptor ∈ record.classTypes, NamesClass descriptor
  registers : ∀ method ∈ record.methods, HoldsArguments method.code

/-- Every type of the table is one. -/
def Tables.SoundTypes (tables : Tables) : Prop :=
  ∀ index ∈ tables.types.toList,
    ∃ descriptor, tables.DenotesText index descriptor ∧ Descriptor.isTypeDescriptor descriptor

theorem forall₂_and_right {α β : Type} (R : α → β → Prop) (p : β → Prop) (l : List α)
    (u : List β) :
    List.Forall₂ (fun a b => R a b ∧ p b) l u ↔ List.Forall₂ R l u ∧ ∀ b ∈ u, p b := by
  constructor
  · intro h
    induction h with
    | nil => simp
    | cons hab _ ih => exact ⟨.cons hab.1 ih.1, List.forall_mem_cons.mpr ⟨hab.2, ih.2⟩⟩
  · rintro ⟨h, hp⟩
    induction h with
    | nil => exact .nil
    | cons hab _ ih =>
      obtain ⟨hb, hrest⟩ := List.forall_mem_cons.mp hp
      exact .cons ⟨hab, hb⟩ (ih hrest)

theorem forall_mem_of_forall₂ {α β : Type} {R : α → β → Prop} {p : β → Prop} {l : List α}
    {u : List β} (h : List.Forall₂ R l u) (hp : ∀ a b, R a b → p b) : ∀ b ∈ u, p b := by
  have hboth : List.Forall₂ (fun a b => R a b ∧ p b) l u :=
    h.imp fun a b hab => ⟨hab, hp a b hab⟩
  exact ((forall₂_and_right R p l u).mp hboth).2

theorem exists_mem_of_forall₂ {α β : Type} {R : α → β → Prop} {l : List α} {u : List β}
    (h : List.Forall₂ R l u) {a : α} (ha : a ∈ l) : ∃ b ∈ u, R a b := by
  induction h with
  | nil => simp at ha
  | cons hab _ ih =>
    rcases List.mem_cons.mp ha with rfl | hrest
    · exact ⟨_, List.mem_cons_self, hab⟩
    · obtain ⟨b, hb, hR⟩ := ih hrest
      exact ⟨b, List.mem_cons_of_mem _ hb, hR⟩

theorem map_eq_map_of_forall₂ {α β γ : Type} {R : α → β → Prop} {f : α → γ} {g : β → γ}
    {l : List α} {u : List β} (h : List.Forall₂ R l u) (hR : ∀ a b, R a b → f a = g b) :
    l.map f = u.map g := by
  rw [← List.forall₂_eq_eq_eq, List.forall₂_map_left_iff, List.forall₂_map_right_iff]
  exact h.imp hR

theorem optionally_and (denotes : UInt32 → String → Prop) (p : String → Prop) (index : UInt32)
    (o : Option String) :
    Optionally (fun i text => denotes i text ∧ p text) index o ↔
      Optionally denotes index o ∧ ∀ text ∈ o, p text := by
  cases o with
  | none => simp [Optionally]
  | some text => simp [Optionally, and_assoc]

theorem admissible_iff (record : ClassRecord) :
    Admissible record ↔ NamesClass record.descriptor ∧ (∀ d ∈ record.superclass, NamesClass d) ∧
      (∀ d ∈ record.interfaces, NamesClass d) ∧
      ∀ method ∈ record.methods, HoldsArguments method.code := by
  have hclass : (∀ d ∈ record.classTypes, NamesClass d) ↔ NamesClass record.descriptor ∧
      (∀ d ∈ record.superclass, NamesClass d) ∧ ∀ d ∈ record.interfaces, NamesClass d := by
    simp only [ClassRecord.classTypes, List.forall_mem_cons, List.forall_mem_append,
      Option.mem_toList, Option.mem_def]
  constructor
  · rintro ⟨hnames, hregisters⟩
    obtain ⟨hdescriptor, hsuper, hinterfaces⟩ := hclass.mp hnames
    exact ⟨hdescriptor, hsuper, hinterfaces, hregisters⟩
  · rintro ⟨hdescriptor, hsuper, hinterfaces, hregisters⟩
    exact ⟨hclass.mpr ⟨hdescriptor, hsuper, hinterfaces⟩, hregisters⟩

namespace Tables

variable (tables : Tables)

theorem string_eq_ok_iff (place : Place) (index : UInt32) (text : String) :
    tables.string place index = .ok text ↔ tables.DenotesText index text := by
  unfold Tables.string DenotesText text?
  split <;> simp_all

theorem typeDescriptor_eq_ok_iff (place : Place) (index : UInt32) (descriptor : String) :
    tables.typeDescriptor place index = .ok descriptor ↔ tables.DenotesType index descriptor := by
  unfold typeDescriptor DenotesType descriptor?
  cases tables.types[index.toNat]? with
  | none => simp
  | some stringIndex => exact tables.string_eq_ok_iff place stringIndex descriptor

theorem classType_eq_ok_iff (place : Place) (index : UInt32) (descriptor : String) :
    tables.classType place index = .ok descriptor ↔
      tables.DenotesType index descriptor ∧ NamesClass descriptor := by
  unfold classType
  rw [except_bind_eq_ok_iff]
  simp only [typeDescriptor_eq_ok_iff]
  constructor
  · rintro ⟨found, hfound, h⟩
    split at h
    · rename_i hhead
      obtain rfl := (except_pure_eq_ok_iff _ _).mp h
      exact ⟨hfound, hhead⟩
    · cases h
  · rintro ⟨htype, hhead⟩
    refine ⟨descriptor, htype, ?_⟩
    rw [NamesClass] at hhead
    rw [if_pos hhead]
    rfl

theorem optional_eq_ok_iff {lookup : UInt32 → Except ValidationError String}
    {denotes : UInt32 → String → Prop}
    (hlookup : ∀ index text, lookup index = .ok text ↔ denotes index text) (index : UInt32)
    (o : Option String) : optional lookup index = .ok o ↔ Optionally denotes index o := by
  unfold optional
  by_cases hnone : index = noIndex
  · rw [if_pos hnone]
    cases o with
    | none => simp [Optionally, hnone]
    | some text => simp [Optionally, hnone]
  · rw [if_neg hnone]
    cases o with
    | none =>
      cases hfound : lookup index with
      | error e => simp [Optionally, hnone, Functor.map, Except.map]
      | ok text => simp [Optionally, hnone, Functor.map, Except.map]
    | some text =>
      rw [Optionally, ← hlookup]
      cases hfound : lookup index with
      | error e => simp [Functor.map, Except.map]
      | ok found => simp [hnone, Functor.map, Except.map]

theorem checkType_eq_of_denotesText {index : UInt32} {descriptor : String}
    (h : tables.DenotesText index descriptor) :
    tables.checkType index =
      if Descriptor.isTypeDescriptor descriptor then .ok ()
      else .error (.malformedType descriptor) := by
  unfold checkType
  rw [(tables.string_eq_ok_iff .typeTable index descriptor).mpr h]
  rfl

theorem checkType_eq_ok_iff (index : UInt32) :
    tables.checkType index = .ok () ↔ ∃ descriptor,
      tables.DenotesText index descriptor ∧ Descriptor.isTypeDescriptor descriptor := by
  unfold checkType
  rw [except_bind_eq_ok_iff]
  simp only [string_eq_ok_iff]
  constructor
  · rintro ⟨descriptor, htext, h⟩
    split at h
    · rename_i htype
      exact ⟨descriptor, htext, htype⟩
    · cases h
  · rintro ⟨descriptor, htext, htype⟩
    refine ⟨descriptor, htext, ?_⟩
    rw [if_pos htype]
    rfl

theorem field_eq_ok_iff (entry : FieldEntry) (field : FieldRecord) :
    tables.field entry = .ok field ↔ entry.Denotes tables field := by
  unfold Tables.field
  simp only [except_bind_eq_ok_iff, string_eq_ok_iff, typeDescriptor_eq_ok_iff,
    except_pure_eq_ok_iff]
  constructor
  · rintro ⟨name, hname, type, htype, rfl⟩
    exact ⟨hname, htype, rfl⟩
  · rintro ⟨hname, htype, hflags⟩
    exact ⟨field.name, hname, field.typeDescriptor, htype, by rw [← hflags]⟩

theorem checkRegisters_eq_ok_iff (classDescriptor name : String) (code : Option CodeItem) :
    checkRegisters classDescriptor name code = .ok () ↔ HoldsArguments code := by
  cases code with
  | none => simp [checkRegisters, HoldsArguments]
  | some item =>
    simp only [checkRegisters, HoldsArguments, Option.mem_some_iff, forall_eq']
    split <;> simp_all

theorem method_eq_ok_iff (classDescriptor : String) (entry : MethodEntry)
    (method : MethodRecord) :
    tables.method classDescriptor entry = .ok method ↔
      entry.Denotes tables method ∧ HoldsArguments method.code := by
  unfold Tables.method
  simp only [except_bind_eq_ok_iff, string_eq_ok_iff, except_pure_eq_ok_iff]
  constructor
  · rintro ⟨name, hname, ⟨⟩, hregisters, proto, hproto, rfl⟩
    exact ⟨⟨hname, hproto, rfl, rfl⟩, (checkRegisters_eq_ok_iff _ _ _).mp hregisters⟩
  · rintro ⟨⟨hname, hproto, hflags, hcode⟩, hregisters⟩
    rw [hcode] at hregisters
    exact ⟨method.name, hname, (), (checkRegisters_eq_ok_iff _ _ _).mpr hregisters, method.proto,
      hproto, by rw [← hflags, ← hcode]⟩

/-- Adding the class of an entry succeeds when the entry denotes an admissible record of a new
class. -/
theorem addClass_eq_ok_iff (bundle next : Bundle) (entry : ClassEntry) :
    tables.addClass bundle entry = .ok next ↔ ∃ record, entry.Denotes tables record ∧
      Admissible record ∧ ¬ bundle.defines record.descriptor ∧
      next = { bundle with classes := bundle.classes ++ [record] } := by
  unfold addClass
  rw [except_bind_eq_ok_iff]
  simp only [except_check_eq_ok_iff, except_bind_eq_ok_iff, classType_eq_ok_iff, mapM_eq_ok_iff,
    optional_eq_ok_iff (tables.classType_eq_ok_iff _), field_eq_ok_iff, method_eq_ok_iff,
    optional_eq_ok_iff (tables.string_eq_ok_iff _), forall₂_and_right, optionally_and,
    admissible_iff]
  constructor
  · rintro ⟨descriptor, ⟨htype, hclass⟩, hnew, superclass, ⟨hsuper, hsuperClass⟩, interfaces,
      ⟨hinterfaces, hinterfaceClasses⟩, sourceFile, hsource, fields, hfields, methods,
      ⟨hmethods, hregisters⟩, h⟩
    split at h
    · rename_i extended hadd
      obtain ⟨-, rfl⟩ := (Bundle.add_eq_ok_iff _ _ _).mp hadd
      obtain rfl := (except_pure_eq_ok_iff _ _).mp h
      exact ⟨_, ⟨htype, rfl, hsuper, hinterfaces, hsource, hfields, hmethods⟩,
        ⟨hclass, hsuperClass, hinterfaceClasses, hregisters⟩, hnew, rfl⟩
    · cases h
  · rintro ⟨record, hdenotes, ⟨hclass, hsuperClass, hinterfaceClasses, hregisters⟩, hnew, rfl⟩
    refine ⟨record.descriptor, ⟨hdenotes.type, hclass⟩, hnew, record.superclass,
      ⟨hdenotes.superclass, hsuperClass⟩, record.interfaces,
      ⟨hdenotes.interfaces, hinterfaceClasses⟩, record.sourceFile, hdenotes.sourceFile,
      record.fields, hdenotes.fields, record.methods, ⟨hdenotes.methods, hregisters⟩, ?_⟩
    rw [← hdenotes.accessFlags, (Bundle.add_eq_ok_iff _ _ _).mpr ⟨hnew, rfl⟩]
    rfl

/-- Adding the classes of entries succeeds when they denote admissible records of classes that
differ from each other and from those before. -/
private theorem foldlM_addClass_eq_ok_iff (entries : List ClassEntry) (start final : Bundle)
    (hstart : start.Distinct) :
    entries.foldlM tables.addClass start = .ok final ↔ ∃ records,
      List.Forall₂ (ClassEntry.Denotes tables) entries records ∧
      (∀ record ∈ records, Admissible record) ∧
      final = { start with classes := start.classes ++ records } ∧ final.Distinct := by
  induction entries generalizing start with
  | nil =>
    rw [List.foldlM_nil, except_pure_eq_ok_iff]
    constructor
    · rintro rfl
      exact ⟨[], .nil, by simp, by simp, hstart⟩
    · rintro ⟨records, hrecords, -, rfl, -⟩
      cases hrecords
      simp
  | cons entry entries ih =>
    rw [List.foldlM_cons, except_bind_eq_ok_iff]
    constructor
    · rintro ⟨next, hnext, hrest⟩
      obtain ⟨record, hdenotes, hadmissible, hnew, rfl⟩ := (addClass_eq_ok_iff _ _ _ _).mp hnext
      obtain ⟨records, hrecords, hall, rfl, hdistinct⟩ :=
        (ih _ ((Bundle.distinct_snoc_iff _ _).mpr ⟨hnew, hstart⟩)).mp hrest
      exact ⟨record :: records, .cons hdenotes hrecords,
        List.forall_mem_cons.mpr ⟨hadmissible, hall⟩, by simp, hdistinct⟩
    · rintro ⟨records, hrecords, hall, rfl, hdistinct⟩
      obtain ⟨record, records, hdenotes, hrest, rfl⟩ := List.forall₂_cons_left_iff.mp hrecords
      obtain ⟨hadmissible, hall⟩ := List.forall_mem_cons.mp hall
      have hsplit : start.classes ++ record :: records = start.classes ++ [record] ++ records := by
        simp
      have hfront : Bundle.Distinct { start with classes := start.classes ++ [record] } := by
        unfold Bundle.Distinct at hdistinct ⊢
        rw [hsplit, List.map_append] at hdistinct
        exact hdistinct.of_append_left
      have hnew := ((Bundle.distinct_snoc_iff _ _).mp hfront).1
      refine ⟨_, (addClass_eq_ok_iff _ _ _ _).mpr ⟨record, hdenotes, hadmissible, hnew, rfl⟩, ?_⟩
      exact (ih _ hfront).mpr ⟨records, hrest, hall, by rw [hsplit], hdistinct⟩

theorem resolve_eq_error_of_checkType {e : ValidationError}
    (h : tables.types.toList.forM tables.checkType = .error e) : tables.resolve = .error e := by
  unfold resolve
  rw [h]
  rfl

/-- Resolving succeeds exactly on tables with sound types that denote a bundle of different
admissible classes, and gives that bundle. -/
theorem resolve_eq_ok_iff (bundle : Bundle) :
    tables.resolve = .ok bundle ↔ tables.SoundTypes ∧ tables.Denotes bundle ∧
      (∀ record ∈ bundle.classes, Admissible record) ∧ bundle.Distinct := by
  unfold resolve
  rw [except_bind_eq_ok_iff]
  simp only [foldlM_addClass_eq_ok_iff tables tables.classes { dialect := tables.dialect } bundle
    List.nodup_nil]
  constructor
  · rintro ⟨⟨⟩, htypes, records, hrecords, hall, rfl, hdistinct⟩
    refine ⟨?_, ⟨rfl, hrecords⟩, hall, hdistinct⟩
    intro index hindex
    exact (tables.checkType_eq_ok_iff index).mp ((forM_eq_ok_iff _ _).mp htypes index hindex)
  · rintro ⟨htypes, ⟨hdialect, hrecords⟩, hall, hdistinct⟩
    refine ⟨(), ?_, bundle.classes, hrecords, hall, ?_, hdistinct⟩
    · apply (forM_eq_ok_iff _ _).mpr
      intro index hindex
      exact (tables.checkType_eq_ok_iff index).mpr (htypes index hindex)
    · rw [← hdialect]
      rfl

end Tables

end LiveDex.Container
