import LiveDex.ClassFile.Parser
import LiveDex.Proofs.ConstantPool

/-!
Which byte strings are class files. An indexed class file denotes a class file when each of its
indices leads to the name that stands in its place, the first `Code` attribute of a member is laid
out as code is, and every `SourceFile` attribute is the index of a text. Parsing accepts exactly
the layouts of such indexed class files, and returns what they denote.
-/
namespace LiveDex.ClassFile

open Reader

structure IndexedAttribute.Denotes (pool : Pool) (raw : IndexedAttribute) (attr : Attribute) :
    Prop where
  name : pool.HasText raw.name attr.name
  data : attr.data = raw.data

/-- The parts of code, whose own attributes have names but are not kept. -/
structure IndexedCode.Denotes (pool : Pool) (raw : IndexedCode) (code : Code) : Prop where
  maxStack : code.maxStack = raw.maxStack
  maxLocals : code.maxLocals = raw.maxLocals
  exceptions : code.exceptionTableLength.toNat = raw.exceptionTable.length
  code : code.code = raw.code
  attributes : ∀ attr ∈ raw.attributes, ∃ name, pool.HasText attr.name name

/-- The first `Code` attribute is laid out as code is, and gives the code of its member. -/
def DenotesCode (pool : Pool) (attributes : List Attribute) : Option Code → Prop
  | none => ∀ attr ∈ attributes, attr.name ≠ "Code"
  | some code => ∃ (attr : Attribute) (raw : IndexedCode),
    attributes.find? (fun attr => attr.name = "Code") = some attr ∧ raw.Fits ∧
      raw.Denotes pool code ∧ attr.data = raw.layout

structure IndexedMember.Denotes (pool : Pool) (raw : IndexedMember) (member : Member) :
    Prop where
  accessFlags : member.accessFlags = raw.accessFlags
  name : pool.HasText raw.name member.name
  descriptor : pool.HasText raw.descriptor member.descriptor
  attributes :
    List.Forall₂ (IndexedAttribute.Denotes pool) raw.attributes member.attributes
  code : DenotesCode pool member.attributes member.code

/-- Index 0 denotes no superclass. -/
def DenotesSuper (pool : Pool) (index : UInt16) : Option String → Prop
  | none => index = 0
  | some name => index ≠ 0 ∧ pool.HasClass index name

/-- The data of the attribute is the index of the text. -/
def DenotesText (pool : Pool) (attr : Attribute) (text : String) : Prop :=
  ∃ index, attr.data = layout16 index ∧ pool.HasText index text

/-- Every `SourceFile` attribute is the index of a text, and the last of them counts. -/
def DenotesSource (pool : Pool) (attributes : List Attribute) (sourceFile : Option String) :
    Prop :=
  ∃ texts, List.Forall₂ (DenotesText pool)
      (attributes.filter fun attr => attr.name = "SourceFile") texts ∧
    sourceFile = texts.getLast?

end ClassFile

/-- The class file is the indexed one with each index replaced by what it denotes. -/
structure IndexedClassFile.Denotes (raw : IndexedClassFile) (file : ClassFile) : Prop where
  minorVersion : file.minorVersion = raw.minorVersion
  majorVersion : file.majorVersion = raw.majorVersion
  constants : file.pool.Holds raw.constants
  references : file.pool.Sound
  accessFlags : file.accessFlags = raw.accessFlags
  thisClass : file.pool.HasClass raw.thisClass file.thisClass
  superClass : ClassFile.DenotesSuper file.pool raw.superClass file.superClass
  interfaces : List.Forall₂ file.pool.HasClass raw.interfaces file.interfaces
  fields : List.Forall₂ (ClassFile.IndexedMember.Denotes file.pool) raw.fields file.fields
  methods : List.Forall₂ (ClassFile.IndexedMember.Denotes file.pool) raw.methods file.methods
  attributes :
    List.Forall₂ (ClassFile.IndexedAttribute.Denotes file.pool) raw.attributes file.attributes
  sourceFile : ClassFile.DenotesSource file.pool file.attributes file.sourceFile

namespace ClassFile

open Reader

/-- An index that is looked up as soon as it is read. -/
def readName (lookup : UInt16 → Except Error String) : Reader Error String := do
  lookup (← .word16 .big)

theorem readName_exact {lookup : UInt16 → Except Error String}
    {denotes : UInt16 → String → Prop}
    (hlookup : ∀ index text, lookup index = .ok text ↔ denotes index text) :
    Exact (readName lookup) (Denoted (fun _ => True) layout16 denotes) := by
  apply (half_exact.bindWritten (fun index => Exact.ofExcept (x := lookup index))).congr
  intro bytes text
  constructor
  · rintro ⟨index, back, -, ⟨rfl, hfound⟩, rfl⟩
    exact ⟨index, trivial, (hlookup _ _).mp hfound, List.append_nil _⟩
  · rintro ⟨index, -, hdenotes, rfl⟩
    exact ⟨index, [], trivial, ⟨rfl, (hlookup _ _).mpr hdenotes⟩, (List.append_nil _).symm⟩

/-- Bytes behind their length. -/
def readData : Reader Error Bytes := do
  let length ← .word32 .big
  .take length.toNat

theorem readData_exact :
    Exact readData (Written (fun data => data.length < UInt32.size)
      (fun data => Bytes.ofNat .big 4 data.length ++ data)) := by
  apply (full_exact.bindWritten (fun length => take_exact length.toNat)).congr
  intro bytes data
  constructor
  · rintro ⟨length, _, -, ⟨rfl, hlength⟩, rfl⟩
    exact ⟨lt_of_eq_of_lt hlength length.toNat_lt, by simp only [layout32, hlength]⟩
  · rintro ⟨hlength, rfl⟩
    have htoNat : data.length.toUInt32.toNat = data.length := by
      rw [Nat.toUInt32_eq, UInt32.toNat_ofNat_of_lt' hlength]
    exact ⟨data.length.toUInt32, data, trivial, ⟨rfl, htoNat.symm⟩, by rw [layout32, htoNat]⟩

/-- A count and as many items are read from the layout of the list. -/
theorem counted_exact {ρ α : Type} {item : Reader Error α} {fits : ρ → Prop} {layout : ρ → Bytes}
    {denotes : ρ → α → Prop} (hitem : Exact item (Denoted fits layout denotes)) :
    Exact (do let count ← .word16 .big; .times count.toNat item : Reader Error (List α))
      (Denoted (fun raws => raws.length < UInt16.size ∧ ∀ raw ∈ raws, fits raw)
        (layoutList layout) (List.Forall₂ denotes)) := by
  apply (half_exact.bindWritten (fun count => times_exact hitem count.toNat)).congr
  intro bytes items
  simp only [sequence_denoted_iff]
  constructor
  · rintro ⟨count, _, -, ⟨hcount, raws, hfits, hdenotes, rfl⟩, rfl⟩
    have hlength : raws.length = count.toNat := hdenotes.length_eq.trans hcount
    refine ⟨raws, ⟨?_, hfits⟩, hdenotes, ?_⟩
    · rw [hlength]
      exact count.toNat_lt
    · rw [layoutList, layout16, hlength]
  · rintro ⟨raws, ⟨hlength, hfits⟩, hdenotes, rfl⟩
    refine ⟨raws.length.toUInt16, _, trivial, ⟨?_, raws, hfits, hdenotes, rfl⟩, ?_⟩
    · rw [Nat.toUInt16_eq, UInt16.toNat_ofNat_of_lt' hlength, hdenotes.length_eq]
    · rw [layout16_ofNat hlength, layoutList]

section Parts

variable (pool : Pool)

theorem readAttribute_exact :
    Exact (readAttribute pool)
      (Denoted IndexedAttribute.Fits IndexedAttribute.layout (IndexedAttribute.Denotes pool)) := by
  have hread : readAttribute pool =
      readName pool.text >>= fun name => readData >>= fun data => pure ⟨name, data⟩ := by
    simp only [readAttribute, readName, readData, bind_bind]
  rw [hread]
  apply ((readName_exact pool.text_eq_ok_iff).bindDenoted (fun name =>
    readData_exact.bindWritten (fun data => Exact.pure (Attribute.mk name data)))).congr
  intro bytes attr
  constructor
  · rintro ⟨index, name, _, -, hname, ⟨data, _, hfits, ⟨rfl, rfl⟩, rfl⟩, rfl⟩
    exact ⟨⟨index, data⟩, hfits, ⟨hname, rfl⟩, by simp [IndexedAttribute.layout]⟩
  · rintro ⟨⟨index, data⟩, hfits, ⟨hname, hdata⟩, rfl⟩
    refine ⟨index, attr.name, _, trivial, hname, ⟨data, [], hfits, ⟨rfl, ?_⟩, rfl⟩, ?_⟩
    · exact congrArg (Attribute.mk attr.name) hdata
    · simp [IndexedAttribute.layout]

theorem readAttributes_exact :
    Exact (readAttributes pool) (Denoted
      (fun raws => raws.length < UInt16.size ∧ ∀ raw ∈ raws, raw.Fits)
      (layoutList IndexedAttribute.layout) (List.Forall₂ (IndexedAttribute.Denotes pool))) :=
  counted_exact (readAttribute_exact pool)

theorem forall₂_denotes_iff (raws : List IndexedAttribute) :
    (∃ attributes, List.Forall₂ (IndexedAttribute.Denotes pool) raws attributes) ↔
      ∀ raw ∈ raws, ∃ name, pool.HasText raw.name name := by
  constructor
  · rintro ⟨attributes, hdenotes⟩
    induction hdenotes with
    | nil => simp
    | @cons raw attr raws attributes hraw _ ih =>
      exact List.forall_mem_cons.mpr ⟨⟨attr.name, hraw.name⟩, ih⟩
  · intro h
    induction raws with
    | nil => exact ⟨[], .nil⟩
    | cons raw rest ih =>
      obtain ⟨⟨name, hname⟩, hrest⟩ := List.forall_mem_cons.mp h
      obtain ⟨attributes, hdenotes⟩ := ih hrest
      exact ⟨⟨name, raw.data⟩ :: attributes, .cons ⟨hname, rfl⟩ hdenotes⟩

theorem endAttribute_exact (attr : Attribute) :
    ExactToEnd (endAttribute attr) (fun bytes _ => bytes = []) := by
  refine ExactToEnd.congr (r := endAttribute attr)
    (ExactToEnd.finishOr () (fun c x => by simp [Reader.fail])) ?_
  intro bytes u
  simp

/-- Any two bytes are the layout of an index. -/
theorem exists_layout16 {n : Nat} (bytes : Bytes) (h : bytes.length = n + 2) :
    ∃ index rest, bytes = layout16 index ++ rest ∧ rest.length = n := by
  have hfront : (bytes.take 2).length = 2 := by simp [h]
  have hlt : Bytes.toNat .big (bytes.take 2) < UInt16.size := by
    have hbound := Bytes.toNat_lt .big (bytes.take 2)
    rwa [hfront] at hbound
  have hback := Bytes.ofNat_toNat .big (bytes.take 2)
  rw [hfront] at hback
  refine ⟨(Bytes.toNat .big (bytes.take 2)).toUInt16, bytes.drop 2, ?_, by simp [h]⟩
  rw [layout16_ofNat hlt, hback, List.take_append_drop]

theorem ExceptionEntry.length_layout (entry : ExceptionEntry) : entry.layout.length = 8 := by
  simp [ExceptionEntry.layout, layout16, Bytes.length_ofNat]

theorem ExceptionEntry.exists_layout (bytes : Bytes) (h : bytes.length = 8) :
    ∃ entry : ExceptionEntry, bytes = entry.layout := by
  obtain ⟨start, rest, rfl, hstart⟩ := exists_layout16 (n := 6) bytes h
  obtain ⟨stop, rest, rfl, hstop⟩ := exists_layout16 (n := 4) rest hstart
  obtain ⟨handler, rest, rfl, hhandler⟩ := exists_layout16 (n := 2) rest hstop
  obtain ⟨catchType, rest, rfl, hcatch⟩ := exists_layout16 (n := 0) rest hhandler
  obtain rfl := List.eq_nil_of_length_eq_zero hcatch
  exact ⟨⟨start, stop, handler, catchType⟩, by simp [ExceptionEntry.layout]⟩

/-- The bytes of an exception table are those of as many entries, whatever they are. -/
theorem exists_exceptionTable_iff (n : Nat) (bytes : Bytes) :
    (∃ table : List ExceptionEntry,
      table.length = n ∧ bytes = table.flatMap ExceptionEntry.layout) ↔
      bytes.length = n * 8 := by
  constructor
  · rintro ⟨table, rfl, rfl⟩
    simp [List.length_flatMap, ExceptionEntry.length_layout]
  · intro h
    induction n generalizing bytes with
    | zero => exact ⟨[], rfl, List.eq_nil_of_length_eq_zero (by omega)⟩
    | succ n ih =>
      obtain ⟨entry, hentry⟩ := ExceptionEntry.exists_layout (bytes.take 8) (by simp; omega)
      obtain ⟨table, hlength, htable⟩ := ih (bytes.drop 8) (by simp; omega)
      refine ⟨entry :: table, by simp [hlength], ?_⟩
      rw [List.flatMap_cons, ← hentry, ← htable, List.take_append_drop]

/-- The length of an exception table, whose entries are passed over. -/
def readTableLength : Reader Error UInt16 := do
  let count ← .word16 .big
  let _ ← .take (count.toNat * 8)
  return count

theorem readTableLength_exact :
    Exact readTableLength (Denoted (fun table => table.length < UInt16.size)
      (layoutList ExceptionEntry.layout) (fun table count => count.toNat = table.length)) := by
  apply (half_exact.bindWritten (fun count =>
    (take_exact (count.toNat * 8)).bind (fun _ => Exact.pure count))).congr
  intro bytes count
  constructor
  · rintro ⟨count, _, -, ⟨_, entries, _, ⟨rfl, hentries⟩, ⟨rfl, rfl⟩, rfl⟩, rfl⟩
    obtain ⟨table, hlength, rfl⟩ := (exists_exceptionTable_iff _ _).mpr hentries
    refine ⟨table, lt_of_eq_of_lt hlength count.toNat_lt, hlength.symm, ?_⟩
    rw [layoutList, hlength, List.append_nil, layout16]
  · rintro ⟨table, -, hcount, rfl⟩
    have hentries := (exists_exceptionTable_iff _ _).mp ⟨table, hcount.symm, rfl⟩
    refine ⟨count, _, trivial, ⟨_, _, [], ⟨rfl, hentries⟩, ⟨rfl, rfl⟩, rfl⟩, ?_⟩
    rw [layoutList, ← hcount, List.append_nil, layout16]

/-- Code is read from its layout, which must be all that the attribute holds. -/
theorem readCode_exact (attr : Attribute) :
    ExactToEnd (readCode pool attr)
      (Denoted IndexedCode.Fits IndexedCode.layout (IndexedCode.Denotes pool)) := by
  have hread : readCode pool attr = (do
      let maxStack ← .word16 .big
      let maxLocals ← .word16 .big
      let code ← readData
      let exceptions ← readTableLength
      let _ ← readAttributes pool
      endAttribute attr
      return ⟨maxStack, maxLocals, code, exceptions⟩) := by
    simp only [readCode, readData, readTableLength, bind_bind]
    rfl
  rw [hread]
  apply (ExactToEnd.bindWritten half_exact (fun maxStack =>
    ExactToEnd.bindWritten half_exact (fun maxLocals =>
    ExactToEnd.bindWritten readData_exact (fun code =>
    ExactToEnd.bindDenoted readTableLength_exact (fun exceptions =>
    ExactToEnd.bindDenoted (readAttributes_exact pool) (fun _ =>
    (endAttribute_exact attr).andThen (fun _ =>
      Exact.pure (Code.mk maxStack maxLocals code exceptions)))))))).congr
  intro bytes parsed
  constructor
  · rintro ⟨maxStack, _, -, ⟨maxLocals, _, -, ⟨code, _, hcode, ⟨table, exceptions, _, htable,
      hexceptions, ⟨raws, attributes, _, ⟨hlength, hfits⟩, hdenotes, ⟨-, rfl, rfl⟩, rfl⟩, rfl⟩,
      rfl⟩, rfl⟩, rfl⟩
    refine ⟨⟨maxStack, maxLocals, code, table, raws⟩, ⟨hcode, htable, hlength, hfits⟩,
      ⟨rfl, rfl, hexceptions, rfl, ?_⟩, by simp [IndexedCode.layout]⟩
    exact (forall₂_denotes_iff pool raws).mp ⟨attributes, hdenotes⟩
  · rintro ⟨raw, hfits, hdenotes, rfl⟩
    obtain ⟨attributes, hattributes⟩ :=
      (forall₂_denotes_iff pool raw.attributes).mpr hdenotes.attributes
    refine ⟨raw.maxStack, _, trivial, ⟨raw.maxLocals, _, trivial, ⟨raw.code, _, hfits.code_length,
      ⟨raw.exceptionTable, parsed.exceptionTableLength, _, hfits.exceptions_length,
        hdenotes.exceptions, ⟨raw.attributes, attributes, [],
          ⟨hfits.attributes_length, hfits.attributes_fit⟩, hattributes, ⟨(), rfl, ?_⟩, rfl⟩, rfl⟩,
      rfl⟩, rfl⟩, ?_⟩
    · rw [← hdenotes.maxStack, ← hdenotes.maxLocals, ← hdenotes.code]
    · simp [IndexedCode.layout]

theorem denotesCode_some_iff {attributes : List Attribute} {attr : Attribute} {code : Code}
    (hfind : attributes.find? (fun attr => attr.name = "Code") = some attr) :
    DenotesCode pool attributes (some code) ↔
      ∃ c, (readCode pool attr).run attr.data = .ok (code, c) := by
  rw [(readCode_exact pool attr).run_eq_ok_iff attr.data code]
  constructor
  · rintro ⟨found, raw, hfound, hraw⟩
    obtain rfl := Option.some.inj (hfound.symm.trans hfind)
    exact ⟨raw, hraw⟩
  · rintro ⟨raw, hraw⟩
    exact ⟨attr, raw, hfind, hraw⟩

theorem codeOf_eq_ok_iff (attributes : List Attribute) (code : Option Code) :
    codeOf pool attributes = .ok code ↔ DenotesCode pool attributes code := by
  unfold codeOf
  cases hfind : attributes.find? (fun attr => attr.name = "Code") with
  | none =>
    have hnone : ∀ attr ∈ attributes, attr.name ≠ "Code" := by simpa using hfind
    cases code with
    | none => simpa [DenotesCode] using hnone
    | some code => simp [DenotesCode, hfind]
  | some attr =>
    cases code with
    | none =>
      have hname : attr.name = "Code" := by simpa using List.find?_some hfind
      have hcode : ¬ DenotesCode pool attributes none :=
        fun h => h attr (List.mem_of_find?_eq_some hfind) hname
      cases hrun : (readCode pool attr).run attr.data <;> simp [hrun, hcode]
    | some code =>
      rw [denotesCode_some_iff pool hfind]
      cases hrun : (readCode pool attr).run attr.data <;> simp [hrun, Prod.ext_iff]

theorem readMember_exact :
    Exact (readMember pool)
      (Denoted IndexedMember.Fits IndexedMember.layout (IndexedMember.Denotes pool)) := by
  have hread : readMember pool = (do
      let accessFlags ← .word16 .big
      let name ← readName pool.text
      let descriptor ← readName pool.text
      let attributes ← readAttributes pool
      let code ← Reader.ofExcept (codeOf pool attributes)
      return ⟨accessFlags, name, descriptor, code, attributes⟩) := by
    simp only [readMember, readName, bind_bind]
    rfl
  rw [hread]
  apply (half_exact.bindWritten (fun accessFlags =>
    (readName_exact pool.text_eq_ok_iff).bindDenoted (fun name =>
    (readName_exact pool.text_eq_ok_iff).bindDenoted (fun descriptor =>
    (readAttributes_exact pool).bindDenoted (fun attributes =>
    (Exact.ofExcept (x := codeOf pool attributes)).bind (fun code =>
      Exact.pure (Member.mk accessFlags name descriptor code attributes))))))).congr
  intro bytes member
  constructor
  · rintro ⟨accessFlags, _, -, ⟨nameIndex, name, _, -, hname, ⟨descriptorIndex, descriptor, _, -,
      hdescriptor, ⟨raws, attributes, _, ⟨hlength, hfits⟩, hattributes, ⟨code, _, _, ⟨rfl, hcode⟩,
      ⟨rfl, rfl⟩, rfl⟩, rfl⟩, rfl⟩, rfl⟩, rfl⟩
    refine ⟨⟨accessFlags, nameIndex, descriptorIndex, raws⟩, ⟨hlength, hfits⟩,
      ⟨rfl, hname, hdescriptor, hattributes, (codeOf_eq_ok_iff pool _ _).mp hcode⟩, ?_⟩
    simp [IndexedMember.layout]
  · rintro ⟨raw, hfits, hdenotes, rfl⟩
    refine ⟨raw.accessFlags, _, trivial, ⟨raw.name, member.name, _, trivial, hdenotes.name,
      ⟨raw.descriptor, member.descriptor, _, trivial, hdenotes.descriptor,
        ⟨raw.attributes, member.attributes, [], ⟨hfits.attributes_length, hfits.attributes_fit⟩,
          hdenotes.attributes, ⟨member.code, [], [],
            ⟨rfl, (codeOf_eq_ok_iff pool _ _).mpr hdenotes.code⟩, ⟨rfl, ?_⟩, rfl⟩, rfl⟩,
        rfl⟩, rfl⟩, ?_⟩
    · rw [← hdenotes.accessFlags]
    · simp [IndexedMember.layout]

theorem readMembers_exact :
    Exact (readMembers pool) (Denoted
      (fun raws => raws.length < UInt16.size ∧ ∀ raw ∈ raws, raw.Fits)
      (layoutList IndexedMember.layout) (List.Forall₂ (IndexedMember.Denotes pool))) :=
  counted_exact (readMember_exact pool)

theorem readInterfaces_exact :
    Exact (readInterfaces pool) (Denoted
      (fun indices => indices.length < UInt16.size ∧ ∀ index ∈ indices, True)
      (layoutList layout16) (List.Forall₂ pool.HasClass)) :=
  counted_exact (readName_exact pool.className_eq_ok_iff)

theorem readSuperClass_exact :
    Exact (readSuperClass pool) (Denoted (fun _ => True) layout16 (DenotesSuper pool)) := by
  have hnamed (index : UInt16) : Exact
      (Reader.ofExcept (pool.className index) >>= fun name => pure (some name))
      (fun bytes name? => bytes = [] ∧ ∃ name, name? = some name ∧ pool.HasClass index name) := by
    apply ((Exact.ofExcept (x := pool.className index)).bind (fun name =>
      Exact.pure (some name))).congr
    intro bytes name?
    constructor
    · rintro ⟨name, _, _, ⟨rfl, hname⟩, ⟨rfl, rfl⟩, rfl⟩
      exact ⟨rfl, name, rfl, (pool.className_eq_ok_iff _ _).mp hname⟩
    · rintro ⟨rfl, name, rfl, hname⟩
      exact ⟨name, [], [], ⟨rfl, (pool.className_eq_ok_iff _ _).mpr hname⟩, ⟨rfl, rfl⟩, rfl⟩
  refine Exact.congr (r := readSuperClass pool) (half_exact.bindWritten (fun index =>
    Exact.ite (p := index = 0) (Exact.pure none) (hnamed index))) ?_
  intro bytes name?
  constructor
  · rintro ⟨index, _, -, ⟨hzero, rfl, rfl⟩ | ⟨hindex, rfl, name, rfl, hname⟩, rfl⟩
    · exact ⟨index, trivial, hzero, List.append_nil _⟩
    · exact ⟨index, trivial, ⟨hindex, hname⟩, List.append_nil _⟩
  · rintro ⟨index, -, hdenotes, rfl⟩
    refine ⟨index, [], trivial, ?_, (List.append_nil _).symm⟩
    cases name? with
    | none => exact Or.inl ⟨hdenotes, rfl, rfl⟩
    | some name => exact Or.inr ⟨hdenotes.1, rfl, name, rfl, hdenotes.2⟩

theorem readSourceFile_exact (attr : Attribute) :
    ExactToEnd (readSourceFile pool attr)
      (fun bytes text => ∃ index, bytes = layout16 index ∧ pool.HasText index text) := by
  refine ExactToEnd.congr (r := readSourceFile pool attr)
    (ExactToEnd.bindWritten half_exact (fun index =>
    (endAttribute_exact attr).andThen (fun _ => Exact.ofExcept (x := pool.text index)))) ?_
  intro bytes text
  constructor
  · rintro ⟨index, _, -, ⟨-, rfl, htext⟩, rfl⟩
    exact ⟨index, List.append_nil _, (pool.text_eq_ok_iff _ _).mp htext⟩
  · rintro ⟨index, rfl, htext⟩
    exact ⟨index, [], trivial, ⟨(), rfl, (pool.text_eq_ok_iff _ _).mpr htext⟩,
      (List.append_nil _).symm⟩

theorem sourceFileFrom_eq_ok_iff (last : Option String) (attributes : List Attribute)
    (sourceFile : Option String) :
    sourceFileFrom pool last attributes = .ok sourceFile ↔
      ∃ texts, List.Forall₂ (DenotesText pool)
          (attributes.filter fun attr => attr.name = "SourceFile") texts ∧
        sourceFile = texts.getLast?.or last := by
  -- `last` is the text of the newest `SourceFile` attribute in front of the list
  induction attributes generalizing last with
  | nil => simp [sourceFileFrom, eq_comm]
  | cons attr rest ih =>
    by_cases hname : attr.name = "SourceFile"
    · have hdenotes (text : String) : DenotesText pool attr text ↔
          ∃ c, (readSourceFile pool attr).run attr.data = .ok (text, c) :=
        ((readSourceFile_exact pool attr).run_eq_ok_iff attr.data text).symm
      have hlast (text : String) (texts : List String) :
          (text :: texts).getLast?.or last = texts.getLast?.or (some text) := by
        cases h : texts.getLast? <;> simp [List.getLast?_cons, h]
      simp only [sourceFileFrom, if_pos hname, List.filter_cons, decide_eq_true hname, if_true,
        List.forall₂_cons_left_iff, hdenotes]
      cases (readSourceFile pool attr).run attr.data with
      | error e => simp
      | ok x =>
        obtain ⟨found, c⟩ := x
        simp only [ih]
        constructor
        · rintro ⟨texts, hrest, rfl⟩
          exact ⟨found :: texts, ⟨found, texts, ⟨c, rfl⟩, hrest, rfl⟩, (hlast found texts).symm⟩
        · rintro ⟨_, ⟨text, texts, ⟨_, hfound⟩, hrest, rfl⟩, rfl⟩
          cases hfound
          exact ⟨texts, hrest, hlast found texts⟩
    · simp only [sourceFileFrom, if_neg hname, List.filter_cons, decide_eq_false hname]
      simpa using ih last

theorem denotesSource_iff (attributes : List Attribute) (sourceFile : Option String) :
    sourceFileFrom pool none attributes = .ok sourceFile ↔
      DenotesSource pool attributes sourceFile := by
  simp only [sourceFileFrom_eq_ok_iff, Option.or_none]
  rfl

end Parts

/-- A pool with a class in it has slots besides slot 0. -/
theorem Pool.Holds.slots_pos {pool : Pool} {raws : List (Constant Bytes)} {index : UInt16}
    {name : String} (h : pool.Holds raws) (hname : pool.HasClass index name) :
    0 < (raws.flatMap Constant.slots).length := by
  obtain ⟨constants, hdenotes, rfl⟩ := h
  obtain ⟨nameIndex, hget, -⟩ := hname
  cases hdenotes with
  | nil =>
    have hslot : (Pool.ofConstants []).get? index = none := by
      unfold Pool.get? Pool.ofConstants
      cases index.toNat <;> simp
    rw [hslot] at hget
    cases hget
  | @cons raw c raws constants _ _ =>
    simp only [List.flatMap_cons, List.length_append, Constant.length_slots]
    split <;> omega

/-- A pool that is checked as soon as it is read. -/
def readSoundPool : Reader Error Pool := do
  let pool ← Pool.read
  pool.checkReferences
  return pool

theorem readSoundPool_exact :
    Exact readSoundPool (fun bytes pool => ∃ (count : UInt16) (raws : List (Constant Bytes)),
      (∀ raw ∈ raws, raw.Fits) ∧ pool.Holds raws ∧ pool.Sound ∧
      (raws.flatMap Constant.slots).length = count.toNat - 1 ∧
      bytes = layout16 count ++ raws.flatMap Constant.layout) := by
  apply (Pool.read_exact.bind (fun pool => (Exact.ofExcept (x := pool.checkReferences)).bind
    (fun _ => Exact.pure pool))).congr
  intro bytes pool
  constructor
  · rintro ⟨pool, _, _, ⟨count, raws, hfits, hholds, hcount, rfl⟩, ⟨_, _, _, ⟨rfl, hsound⟩,
      ⟨rfl, rfl⟩, rfl⟩, rfl⟩
    exact ⟨count, raws, hfits, hholds, pool.checkReferences_eq_ok_iff.mp hsound, hcount, by simp⟩
  · rintro ⟨count, raws, hfits, hholds, hsound, hcount, rfl⟩
    exact ⟨pool, _, [], ⟨count, raws, hfits, hholds, hcount, rfl⟩,
      ⟨(), [], [], ⟨rfl, pool.checkReferences_eq_ok_iff.mpr hsound⟩, ⟨rfl, rfl⟩, rfl⟩, by simp⟩

/-- The parts of a class file, each read by one reader. -/
theorem read_eq : read = (do
    let found ← .word32 .big
    if found ≠ magic then .fail (.invalidMagic found)
    let minorVersion ← .word16 .big
    let majorVersion ← .word16 .big
    let pool ← readSoundPool
    let accessFlags ← .word16 .big
    let thisClass ← readName pool.className
    let superClass ← readSuperClass pool
    let interfaces ← readInterfaces pool
    let fields ← readMembers pool
    let methods ← readMembers pool
    let attributes ← readAttributes pool
    let sourceFile ← Reader.ofExcept (sourceFileFrom pool none attributes)
    unless ← .atEnd do
      .fail (.trailingBytes (← .offset))
    return {
      minorVersion, majorVersion, pool, accessFlags, thisClass, superClass, interfaces, fields,
      methods, sourceFile, attributes }) := by
  simp only [read, readName, readSoundPool, bind_bind]
  rfl

/-- A class file is read from the layout of an indexed one, and denoted by it. -/
theorem read_exact :
    ExactToEnd read
      (Denoted IndexedClassFile.Fits IndexedClassFile.layout IndexedClassFile.Denotes) := by
  rw [read_eq]
  apply ExactToEnd.congr
  · exact ExactToEnd.bindWritten full_exact (fun found => ExactToEnd.check (
      ExactToEnd.bindWritten half_exact (fun minorVersion =>
      ExactToEnd.bindWritten half_exact (fun majorVersion =>
      ExactToEnd.bind readSoundPool_exact (fun pool =>
      ExactToEnd.bindWritten half_exact (fun accessFlags =>
      ExactToEnd.bindDenoted (readName_exact pool.className_eq_ok_iff) (fun thisClass =>
      ExactToEnd.bindDenoted (readSuperClass_exact pool) (fun superClass =>
      ExactToEnd.bindDenoted (readInterfaces_exact pool) (fun interfaces =>
      ExactToEnd.bindDenoted (readMembers_exact pool) (fun fields =>
      ExactToEnd.bindDenoted (readMembers_exact pool) (fun methods =>
      ExactToEnd.bindDenoted (readAttributes_exact pool) (fun attributes =>
      ExactToEnd.ofExceptBind (fun sourceFile =>
      ExactToEnd.finishOr _
        (fun c x => by simp [Reader.bind_eq_ok_iff, Reader.fail]))))))))))))))
  intro bytes file
  constructor
  · rintro ⟨found, _, -, ⟨hmagic, minorVersion, _, -, ⟨majorVersion, _, -, ⟨pool, _, _,
      ⟨count, constants, hconstants, hholds, hsound, hcount, hfront⟩, hbehind, hpoolBytes⟩,
      hmajorBytes⟩, hminorBytes⟩, hbytes⟩
    obtain ⟨accessFlags, _, -, ⟨thisIndex, thisClass, _, -, hthis, ⟨superIndex, superClass, _, -,
      hsuper, hinside, hsuperBytes⟩, hthisBytes⟩, hflagsBytes⟩ := hbehind
    obtain ⟨interfaceIndices, interfaces, _, ⟨hinterfacesLength, -⟩, hinterfaces, hmembers,
      hinterfacesBytes⟩ := hinside
    obtain ⟨rawFields, fields, _, ⟨hfieldsLength, hfieldsFit⟩, hfields, hmethodsBehind,
      hfieldsBytes⟩ := hmembers
    obtain ⟨rawMethods, methods, _, ⟨hmethodsLength, hmethodsFit⟩, hmethods, hattributesBehind,
      hmethodsBytes⟩ := hmethodsBehind
    obtain ⟨rawAttributes, attributes, _, ⟨hattributesLength, hattributesFit⟩, hattributes,
      ⟨sourceFile, hsource, hend, hfile⟩, hattributesBytes⟩ := hattributesBehind
    subst hfile
    have hslots := hholds.slots_pos hthis
    have hcount' : 1 + (constants.flatMap Constant.slots).length = count.toNat := by omega
    refine ⟨⟨minorVersion, majorVersion, constants, accessFlags, thisIndex, superIndex,
      interfaceIndices, rawFields, rawMethods, rawAttributes⟩, ?_, ?_, ?_⟩
    · exact ⟨lt_of_eq_of_lt hcount' count.toNat_lt, hconstants, hinterfacesLength, hfieldsLength,
        hfieldsFit, hmethodsLength, hmethodsFit, hattributesLength, hattributesFit⟩
    · exact ⟨rfl, rfl, hholds, hsound, rfl, hthis, hsuper, hinterfaces, hfields, hmethods,
        hattributes, (denotesSource_iff pool _ _).mp hsource⟩
    · have hfound : found = magic := not_not.mp hmagic
      simp only [IndexedClassFile.layout, IndexedClassFile.slotCount, hcount', hbytes, hfound,
        hminorBytes, hmajorBytes, hpoolBytes, hfront, hflagsBytes, hthisBytes, hsuperBytes,
        hinterfacesBytes, hfieldsBytes, hmethodsBytes, hattributesBytes, hend, layout16,
        List.append_assoc, List.append_nil]
  · rintro ⟨raw, hfits, hdenotes, rfl⟩
    have hcount : raw.slotCount.toUInt16.toNat = raw.slotCount := by
      rw [Nat.toUInt16_eq, UInt16.toNat_ofNat_of_lt' hfits.slots_count]
    refine ⟨magic, _, trivial, ⟨not_not.mpr rfl, raw.minorVersion, _, trivial,
      ⟨raw.majorVersion, _, trivial, ⟨file.pool, _, _, ⟨raw.slotCount.toUInt16, raw.constants,
        hfits.constants_fit, hdenotes.constants, hdenotes.references, ?_, rfl⟩,
      ⟨raw.accessFlags, _, trivial,
      ⟨raw.thisClass, file.thisClass, _, trivial, hdenotes.thisClass,
      ⟨raw.superClass, file.superClass, _, trivial, hdenotes.superClass,
      ⟨raw.interfaces, file.interfaces, _, ⟨hfits.interfaces_length, fun _ _ => trivial⟩,
        hdenotes.interfaces,
      ⟨raw.fields, file.fields, _, ⟨hfits.fields_length, hfits.fields_fit⟩, hdenotes.fields,
      ⟨raw.methods, file.methods, _, ⟨hfits.methods_length, hfits.methods_fit⟩, hdenotes.methods,
      ⟨raw.attributes, file.attributes, [], ⟨hfits.attributes_length, hfits.attributes_fit⟩,
        hdenotes.attributes, ⟨file.sourceFile, (denotesSource_iff _ _ _).mpr hdenotes.sourceFile,
          rfl, ?_⟩, rfl⟩, rfl⟩, rfl⟩, rfl⟩, rfl⟩, rfl⟩, rfl⟩, rfl⟩, rfl⟩, rfl⟩, ?_⟩
    · rw [hcount, IndexedClassFile.slotCount]
      omega
    · rw [← hdenotes.minorVersion, ← hdenotes.majorVersion, ← hdenotes.accessFlags]
    · simp [IndexedClassFile.layout, layout16, hcount]

theorem parse_eq_ok_iff {bytes : Bytes} {file : ClassFile} :
    parse bytes = .ok file ↔
      ∃ indexed : IndexedClassFile, indexed.Fits ∧ indexed.Denotes file ∧
        bytes = indexed.layout := by
  have hparse : parse bytes = .ok file ↔ ∃ c, read.run bytes = .ok (file, c) := by
    unfold parse
    cases read.run bytes <;> simp [Prod.ext_iff]
  rw [hparse, read_exact.run_eq_ok_iff]
  rfl

end ClassFile

end LiveDex
