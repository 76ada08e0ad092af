import LiveDex.Container.Decode
import LiveDex.Container.Encode
import LiveDex.Proofs.Reading
import Mathlib.Algebra.GroupWithZero.Nat
import Mathlib.Algebra.Order.BigOperators.Group.List
import Mathlib.Algebra.Order.Group.Nat

/-!
Which byte strings are containers. Each part of the format is read from exactly the bytes it is
laid out in, provided that its lengths fit their words, and a byte string is a container of given
tables when it is the sealed layout of those tables. A file below the greatest word leaves no
room for a length that does not fit, so the size of the file is the only bound that remains, in
reading as well as in writing.
-/
namespace LiveDex.Container

open Reader

/-- Lengths that words of four bytes can hold. -/
def Fit (extents : List Extent) : Prop :=
  ∀ extent ∈ extents, extent.length < 2 ^ 32

theorem length_lengthWord (n : Nat) : (lengthWord n).length = 4 :=
  Bytes.length_ofNat .little 4 n

theorem length_word16 (n : UInt16) : (word16 n).length = 2 :=
  Bytes.length_ofNat .little 2 n.toNat

theorem length_word32 (n : UInt32) : (word32 n).length = 4 :=
  Bytes.length_ofNat .little 4 n.toNat

theorem word32_ofNat (n : Nat) (hn : n < 2 ^ 32) : word32 n.toUInt32 = lengthWord n := by
  unfold word32 lengthWord
  rw [Nat.toUInt32_eq, UInt32.toNat_ofNat_of_lt' hn]

private theorem readWord_exact :
    Exact (.word32 .little : Reader DecodeError UInt32) (Written (fun _ => True) word32) :=
  word32_exact .little

private theorem readHalf_exact :
    Exact (.word16 .little : Reader DecodeError UInt16) (Written (fun _ => True) word16) :=
  word16_exact .little

/-- A length and as many items are read from the layout of the list. -/
theorem readList_exact {α : Type} {item : Reader DecodeError α} {fits : α → Prop}
    {layout : α → Bytes} (hitem : Exact item (Written fits layout)) :
    Exact (readList item)
      (Written (fun items => items.length < 2 ^ 32 ∧ ∀ a ∈ items, fits a) (listLayout layout)) := by
  apply (readWord_exact.bindWritten (fun count => times_exact hitem count.toNat)).congr
  intro bytes items
  simp only [sequence_written_iff]
  constructor
  · rintro ⟨count, _, -, ⟨hlen, hfits, rfl⟩, rfl⟩
    refine ⟨⟨?_, hfits⟩, ?_⟩
    · rw [hlen]
      exact count.toNat_lt
    · simp only [listLayout, word32, lengthWord, hlen]
  · rintro ⟨⟨hlen, hfits⟩, rfl⟩
    refine ⟨items.length.toUInt32, _, trivial, ⟨?_, hfits, rfl⟩, ?_⟩
    · rw [Nat.toUInt32_eq, UInt32.toNat_ofNat_of_lt' hlen]
    · rw [word32_ofNat _ hlen]
      rfl

theorem readString_exact :
    Exact readString (Written (fun text => (Text.utf8 text).length < 2 ^ 32) stringLayout) := by
  refine Exact.congr (r := readString) (readWord_exact.bindWritten (fun length =>
    (take_exact length.toNat).bind (fun bytes => Exact.ofOption (o := Text.ofUtf8? bytes)
      (fun text h => by rw [h]) (fun h => by rw [h])))) ?_
  intro bytes text
  constructor
  · rintro ⟨length, _, -, ⟨taken, _, _, ⟨rfl, hlen⟩, ⟨rfl, htext⟩, rfl⟩, rfl⟩
    obtain rfl := Text.utf8_of_ofUtf8?_eq_some htext
    refine ⟨?_, ?_⟩
    · change (Text.utf8 text).length < 2 ^ 32
      rw [hlen]
      exact length.toNat_lt
    · simp only [stringLayout, word32, lengthWord, hlen, List.append_nil]
  · rintro ⟨hlen, rfl⟩
    refine ⟨(Text.utf8 text).length.toUInt32, Text.utf8 text, trivial,
      ⟨Text.utf8 text, _, [], ⟨rfl, ?_⟩, ⟨rfl, Text.ofUtf8?_utf8 text⟩, ?_⟩, ?_⟩
    · rw [Nat.toUInt32_eq, UInt32.toNat_ofNat_of_lt' hlen]
    · rw [List.append_nil]
    · rw [word32_ofNat _ hlen]
      rfl

theorem fieldEntry_exact :
    Exact FieldEntry.read (Written (fun _ => True) FieldEntry.layout) := by
  apply (readWord_exact.bindWritten (fun name => readWord_exact.bindWritten (fun type =>
    readWord_exact.bindWritten (fun flags => Exact.pure (FieldEntry.mk name type flags))))).congr
  intro bytes entry
  constructor
  · rintro ⟨name, _, -, ⟨type, _, -, ⟨flags, _, -, ⟨rfl, rfl⟩, rfl⟩, rfl⟩, rfl⟩
    exact ⟨trivial, by simp [FieldEntry.layout]⟩
  · rintro ⟨-, rfl⟩
    exact ⟨entry.name, _, trivial, ⟨entry.type, _, trivial,
      ⟨entry.accessFlags, [], trivial, ⟨rfl, rfl⟩, rfl⟩, rfl⟩, by simp [FieldEntry.layout]⟩

/-- Everything behind the flag byte of a method with code. -/
private def itemLayout (code : CodeItem) : Bytes :=
  word16 code.registers ++ word16 code.ins ++ word16 code.outs ++ word16 code.tries
    ++ lengthWord code.insns.length ++ code.insns

private theorem codeItem_exact :
    Exact readCodeItem (Written (fun code => code.insns.length < 2 ^ 32) itemLayout) := by
  apply (readHalf_exact.bindWritten (fun registers => readHalf_exact.bindWritten (fun ins =>
    readHalf_exact.bindWritten (fun outs => readHalf_exact.bindWritten (fun tries =>
      readWord_exact.bindWritten (fun length => (take_exact length.toNat).bind (fun insns =>
        Exact.pure (CodeItem.mk registers ins outs tries insns)))))))).congr
  intro bytes code
  constructor
  · rintro ⟨registers, _, -, ⟨ins, _, -, ⟨outs, _, -, ⟨tries, _, -, ⟨length, _, -,
      ⟨insns, _, _, ⟨rfl, hlen⟩, ⟨rfl, rfl⟩, rfl⟩, rfl⟩, rfl⟩, rfl⟩, rfl⟩, rfl⟩
    refine ⟨?_, ?_⟩
    · simp only [hlen]
      exact length.toNat_lt
    · simp [itemLayout, word32, lengthWord, hlen]
  · rintro ⟨hlen, rfl⟩
    refine ⟨code.registers, _, trivial, ⟨code.ins, _, trivial, ⟨code.outs, _, trivial,
      ⟨code.tries, _, trivial, ⟨code.insns.length.toUInt32, code.insns, trivial,
        ⟨code.insns, _, [], ⟨rfl, ?_⟩, ⟨rfl, rfl⟩, (List.append_nil _).symm⟩, rfl⟩, rfl⟩, rfl⟩,
        rfl⟩, ?_⟩
    · rw [Nat.toUInt32_eq, UInt32.toNat_ofNat_of_lt' hlen]
    · simp [itemLayout, word32_ofNat _ hlen]

theorem code_exact :
    Exact readCode
      (Written (fun code => ∀ item ∈ code, item.insns.length < 2 ^ 32) codeLayout) := by
  apply (byte_exact.bind (fun flag => Exact.ite (Exact.pure none)
    (Exact.ite (codeItem_exact.bindWritten (fun item => Exact.pure (some item)))
      (Exact.fail (DecodeError.invalidCodeFlag flag))))).congr
  intro bytes code
  constructor
  · rintro ⟨flag, _, _, rfl, (⟨rfl, rfl, rfl⟩ | ⟨-, ⟨rfl, item, _, hlen, ⟨rfl, rfl⟩, rfl⟩ |
      ⟨-, hfalse⟩⟩), rfl⟩
    · exact ⟨by simp, rfl⟩
    · exact ⟨by simpa using hlen, by simp [codeLayout, itemLayout]⟩
    · exact hfalse.elim
  · rintro ⟨hfits, rfl⟩
    cases code with
    | none => exact ⟨0, [0], [], rfl, Or.inl ⟨rfl, rfl, rfl⟩, rfl⟩
    | some item =>
      refine ⟨1, [1], itemLayout item, rfl, Or.inr ⟨by decide, Or.inl ⟨rfl, item, [],
        hfits item rfl, ⟨rfl, rfl⟩, (List.append_nil _).symm⟩⟩, rfl⟩

theorem methodEntry_exact :
    Exact MethodEntry.read (Written
      (fun entry => ∀ item ∈ entry.code, item.insns.length < 2 ^ 32) MethodEntry.layout) := by
  apply (readWord_exact.bindWritten (fun name => readWord_exact.bindWritten (fun proto =>
    readWord_exact.bindWritten (fun flags => code_exact.bindWritten (fun code =>
      Exact.pure (MethodEntry.mk name proto flags code)))))).congr
  intro bytes entry
  constructor
  · rintro ⟨name, _, -, ⟨proto, _, -, ⟨flags, _, -, ⟨code, _, hcode, ⟨rfl, rfl⟩, rfl⟩, rfl⟩,
      rfl⟩, rfl⟩
    exact ⟨hcode, by simp [MethodEntry.layout]⟩
  · rintro ⟨hcode, rfl⟩
    exact ⟨entry.name, _, trivial, ⟨entry.proto, _, trivial, ⟨entry.accessFlags, _, trivial,
      ⟨entry.code, [], hcode, ⟨rfl, rfl⟩, rfl⟩, rfl⟩, rfl⟩, by simp [MethodEntry.layout]⟩

theorem fit_classExtents_iff (entry : ClassEntry) :
    Fit entry.extents ↔ entry.interfaces.length < 2 ^ 32 ∧ entry.fields.length < 2 ^ 32 ∧
      entry.methods.length < 2 ^ 32 ∧
      ∀ method ∈ entry.methods, ∀ item ∈ method.code, item.insns.length < 2 ^ 32 := by
  simp only [Fit, ClassEntry.extents, List.forall_mem_cons, List.mem_filterMap,
    Option.map_eq_some_iff, Option.mem_def]
  constructor
  · rintro ⟨hinterfaces, hfields, hmethods, hcode⟩
    refine ⟨hinterfaces, hfields, hmethods, ?_⟩
    intro method hmethod item hitem
    exact hcode _ ⟨method, hmethod, item, hitem, rfl⟩
  · rintro ⟨hinterfaces, hfields, hmethods, hcode⟩
    refine ⟨hinterfaces, hfields, hmethods, ?_⟩
    rintro extent ⟨method, hmethod, item, hitem, rfl⟩
    exact hcode method hmethod item hitem

theorem classEntry_exact :
    Exact ClassEntry.read (Written (fun entry => Fit entry.extents) ClassEntry.layout) := by
  apply (readWord_exact.bindWritten (fun type => readWord_exact.bindWritten (fun flags =>
    readWord_exact.bindWritten (fun superclass =>
      (readList_exact readWord_exact).bindWritten (fun interfaces =>
        readWord_exact.bindWritten (fun sourceFile =>
          (readList_exact fieldEntry_exact).bindWritten (fun fields =>
            (readList_exact methodEntry_exact).bindWritten (fun methods =>
              Exact.pure (ClassEntry.mk type flags superclass interfaces sourceFile fields
                methods))))))))).congr
  intro bytes entry
  rw [Written, fit_classExtents_iff]
  constructor
  · rintro ⟨type, _, -, ⟨flags, _, -, ⟨superclass, _, -, ⟨interfaces, _, hinterfaces,
      ⟨sourceFile, _, -, ⟨fields, _, hfields, ⟨methods, _, hmethods, ⟨rfl, rfl⟩, rfl⟩, rfl⟩,
      rfl⟩, rfl⟩, rfl⟩, rfl⟩, rfl⟩
    exact ⟨⟨hinterfaces.1, hfields.1, hmethods⟩, by simp [ClassEntry.layout]⟩
  · rintro ⟨⟨hinterfaces, hfields, hmethods, hcode⟩, rfl⟩
    exact ⟨entry.type, _, trivial, ⟨entry.accessFlags, _, trivial, ⟨entry.superclass, _, trivial,
      ⟨entry.interfaces, _, ⟨hinterfaces, fun _ _ => trivial⟩, ⟨entry.sourceFile, _, trivial,
        ⟨entry.fields, _, ⟨hfields, fun _ _ => trivial⟩,
          ⟨entry.methods, [], ⟨hmethods, hcode⟩, ⟨rfl, rfl⟩, rfl⟩, rfl⟩, rfl⟩, rfl⟩, rfl⟩, rfl⟩,
      by simp [ClassEntry.layout]⟩

theorem ofVersionBytes?_eq_some_iff (version : Bytes) (dialect : Dialect) :
    Dialect.ofVersionBytes? version = some dialect ↔ version = dialect.versionBytes := by
  constructor
  · intro h
    have hfound := List.find?_some h
    simpa using (of_decide_eq_true hfound).symm
  · rintro rfl
    cases dialect <;> rfl

theorem length_magic (dialect : Dialect) : dialect.magic.length = 8 := by
  cases dialect <;> rfl

theorem dialect_exact : Exact readDialect (Written (fun _ => True) Dialect.magic) := by
  refine Exact.congr (r := readDialect) ((take_exact 4).bind (fun mark => Exact.check
    ((take_exact 4).bind (fun version => Exact.ofOption (o := Dialect.ofVersionBytes? version)
      (fun dialect h => by rw [h]) (fun h => by rw [h]))))) ?_
  intro bytes dialect
  simp only [ofVersionBytes?_eq_some_iff, Decidable.not_not]
  constructor
  · rintro ⟨mark, _, _, ⟨rfl, -⟩, ⟨rfl, version, _, _, ⟨rfl, -⟩, ⟨rfl, rfl⟩, rfl⟩, rfl⟩
    exact ⟨trivial, by simp [Dialect.magic]⟩
  · rintro ⟨-, rfl⟩
    refine ⟨Dialect.containerMark, _, dialect.versionBytes, ⟨rfl, rfl⟩, ⟨rfl,
      dialect.versionBytes, _, [], ⟨rfl, ?_⟩, ⟨rfl, rfl⟩, (List.append_nil _).symm⟩, rfl⟩
    cases dialect <;> rfl

/-- The header that belongs to a whole byte string: it states its length and signs what stands
behind the signature. -/
theorem header_exact (bytes : Bytes) :
    Exact (readHeader bytes) (Written (fun _ => bytes.length < 2 ^ 32) (fun dialect =>
      dialect.magic ++ Digest.sha1 (bytes.drop 28) ++ lengthWord bytes.length
        ++ word16 plainFlags)) := by
  refine Exact.congr (r := readHeader bytes) (dialect_exact.bindWritten (fun dialect =>
    (take_exact signatureLength).bind (fun signature => readWord_exact.bindWritten (fun declared =>
      Exact.check (Exact.check (readHalf_exact.bindWritten (fun flags =>
        Exact.check (Exact.pure dialect)))))))) ?_
  intro front dialect
  simp only [Decidable.not_not, length_magic]
  constructor
  · rintro ⟨found, _, -, ⟨signature, _, _, ⟨rfl, -⟩, ⟨declared, _, -, ⟨hsize, rfl, flags, _, -,
      ⟨rfl, rfl, rfl⟩, rfl⟩, rfl⟩, rfl⟩, rfl⟩
    refine ⟨?_, ?_⟩
    · rw [← hsize]
      exact declared.toNat_lt
    · simp [signatureLength, word32, lengthWord, hsize]
  · rintro ⟨hsize, rfl⟩
    refine ⟨dialect, _, trivial, ⟨Digest.sha1 (bytes.drop 28), _, _,
      ⟨rfl, Digest.length_sha1 _⟩, ⟨bytes.length.toUInt32, _, trivial,
        ⟨?_, rfl, plainFlags, [], trivial, ⟨rfl, rfl, rfl⟩, rfl⟩, rfl⟩, rfl⟩, ?_⟩
    · rw [Nat.toUInt32_eq, UInt32.toNat_ofNat_of_lt' hsize]
    · simp [word32_ofNat _ hsize]

theorem fit_extents_iff (tables : Tables) :
    Fit tables.extents ↔ tables.strings.size < 2 ^ 32 ∧
      (∀ text ∈ tables.strings.toList, (Text.utf8 text).length < 2 ^ 32) ∧
      tables.types.size < 2 ^ 32 ∧ tables.classes.length < 2 ^ 32 ∧
      ∀ entry ∈ tables.classes, Fit entry.extents := by
  simp only [Fit, Tables.extents, List.cons_append, List.forall_mem_cons, List.forall_mem_append,
    List.forall_mem_map, List.mem_flatMap]
  constructor
  · rintro ⟨hstrings, ⟨htexts, htypes, hclasses, -⟩, hentries⟩
    refine ⟨hstrings, htexts, htypes, hclasses, ?_⟩
    intro entry hentry extent hextent
    exact hentries extent ⟨entry, hentry, hextent⟩
  · rintro ⟨hstrings, htexts, htypes, hclasses, hentries⟩
    refine ⟨hstrings, ⟨htexts, htypes, hclasses, by simp⟩, ?_⟩
    rintro extent ⟨entry, hentry, hextent⟩
    exact hentries entry hentry extent hextent

private theorem tables_exact (bytes : Bytes) :
    ExactToEnd (Tables.read bytes) (Written
      (fun tables => bytes.length < 2 ^ 32 ∧ Fit tables.extents)
      (fun tables => tables.dialect.magic ++ Digest.sha1 (bytes.drop 28)
        ++ lengthWord bytes.length ++ word16 plainFlags ++ tables.layout)) := by
  refine ExactToEnd.congr (r := Tables.read bytes) (ExactToEnd.bind (header_exact bytes)
    (fun dialect => ExactToEnd.bind (readList_exact readString_exact) (fun strings =>
      ExactToEnd.bind (readList_exact readWord_exact) (fun types =>
        ExactToEnd.bind (readList_exact classEntry_exact) (fun classes =>
          ExactToEnd.finish (Tables.mk dialect strings.toArray types.toArray classes)
            DecodeError.trailingBytes))))) ?_
  intro front tables
  simp only [Written, fit_extents_iff]
  constructor
  · rintro ⟨dialect, _, _, ⟨hsize, rfl⟩, ⟨strings, _, _, ⟨⟨hstrings, htexts⟩, rfl⟩, ⟨types, _, _,
      ⟨⟨htypes, -⟩, rfl⟩, ⟨classes, _, _, ⟨⟨hclasses, hentries⟩, rfl⟩, ⟨rfl, rfl⟩, rfl⟩, rfl⟩,
      rfl⟩, rfl⟩
    exact ⟨⟨hsize, by simpa using hstrings, by simpa using htexts, by simpa using htypes,
      hclasses, hentries⟩, by simp [Tables.layout]⟩
  · rintro ⟨⟨hsize, hstrings, htexts, htypes, hclasses, hentries⟩, rfl⟩
    exact ⟨tables.dialect, _, _, ⟨hsize, rfl⟩, ⟨tables.strings.toList, _, _,
      ⟨⟨by simpa using hstrings, htexts⟩, rfl⟩, ⟨tables.types.toList, _, _,
        ⟨⟨by simpa using htypes, fun _ _ => trivial⟩, rfl⟩, ⟨tables.classes, _, [],
          ⟨⟨hclasses, hentries⟩, rfl⟩, ⟨rfl, rfl⟩, rfl⟩, rfl⟩, rfl⟩, by simp [Tables.layout]⟩

theorem length_listLayout {α : Type} (layout : α → Bytes) (items : List α) :
    (listLayout layout items).length = 4 + (items.map fun a => (layout a).length).sum := by
  simp only [listLayout, List.length_append, length_lengthWord, List.length_flatMap]

theorem length_listLayout_of_const {α : Type} {layout : α → Bytes} {width : ℕ}
    (hwidth : ∀ a, (layout a).length = width) (items : List α) :
    (listLayout layout items).length = 4 + items.length * width := by
  simp only [length_listLayout, hwidth, List.map_const', List.sum_replicate_nat]

theorem length_item_le {α : Type} (layout : α → Bytes) (items : List α) (a : α)
    (ha : a ∈ items) : (layout a).length ≤ (listLayout layout items).length := by
  have hle := List.single_le_sum (l := items.map fun a => (layout a).length) (by simp)
    (layout a).length (List.mem_map_of_mem ha)
  rw [length_listLayout]
  omega

theorem length_le_listLayout {α : Type} (layout : α → Bytes) (items : List α)
    (hpos : ∀ a ∈ items, 0 < (layout a).length) :
    items.length ≤ (listLayout layout items).length := by
  have hsum := List.length_le_sum_of_one_le (items.map fun a => (layout a).length) (by
    intro n hn
    obtain ⟨a, ha, rfl⟩ := List.mem_map.mp hn
    exact hpos a ha)
  rw [List.length_map] at hsum
  rw [length_listLayout]
  omega

theorem length_stringLayout (text : String) :
    (stringLayout text).length = 4 + (Text.utf8 text).length := by
  simp only [stringLayout, List.length_append, length_lengthWord]

theorem length_fieldLayout (entry : FieldEntry) : entry.layout.length = 12 := by
  simp [FieldEntry.layout, length_word32]

theorem length_methodLayout (entry : MethodEntry) :
    entry.layout.length = 12 + (codeLayout entry.code).length := by
  simp only [MethodEntry.layout, List.length_append, length_word32]

theorem length_codeLayout_some (item : CodeItem) :
    (codeLayout (some item)).length = 13 + item.insns.length := by
  simp only [codeLayout, List.length_cons, List.length_append, length_word16, length_lengthWord]
  omega

theorem length_classLayout (entry : ClassEntry) :
    entry.layout.length = 16 + (listLayout word32 entry.interfaces).length
      + (listLayout FieldEntry.layout entry.fields).length
      + (listLayout MethodEntry.layout entry.methods).length := by
  simp only [ClassEntry.layout, List.length_append, length_word32]
  omega

theorem length_tablesLayout (tables : Tables) :
    tables.layout.length = (listLayout stringLayout tables.strings.toList).length
      + (listLayout word32 tables.types.toList).length
      + (listLayout ClassEntry.layout tables.classes).length := by
  simp only [Tables.layout, List.length_append]

private theorem fit_of_classLayout (entry : ClassEntry) (hsize : entry.layout.length < 2 ^ 32) :
    Fit entry.extents := by
  rw [length_classLayout] at hsize
  have hinterfaces := length_le_listLayout word32 entry.interfaces
    (fun n _ => by simp [length_word32])
  have hfields := length_le_listLayout FieldEntry.layout entry.fields
    (fun field _ => by simp [length_fieldLayout])
  have hmethods := length_le_listLayout MethodEntry.layout entry.methods
    (fun method _ => by rw [length_methodLayout]; omega)
  apply (fit_classExtents_iff entry).mpr
  refine ⟨by omega, by omega, by omega, ?_⟩
  intro method hmethod item hitem
  have hcode : method.code = some item := hitem
  have hlayout := length_item_le MethodEntry.layout entry.methods method hmethod
  rw [length_methodLayout, hcode, length_codeLayout_some] at hlayout
  omega

/-- Every length of a layout is at most the length of the layout itself, so a layout that fits a
word has no length that does not. -/
theorem fit_of_layout (tables : Tables) (hsize : tables.layout.length < 2 ^ 32) :
    Fit tables.extents := by
  rw [length_tablesLayout] at hsize
  have hstrings := length_le_listLayout stringLayout tables.strings.toList
    (fun text _ => by rw [length_stringLayout]; omega)
  have htypes := length_le_listLayout word32 tables.types.toList
    (fun n _ => by simp [length_word32])
  have hclasses := length_le_listLayout ClassEntry.layout tables.classes
    (fun entry _ => by rw [length_classLayout]; omega)
  simp only [Array.length_toList] at hstrings htypes
  apply (fit_extents_iff tables).mpr
  refine ⟨by omega, ?_, by omega, by omega, ?_⟩
  · intro text htext
    have hlayout := length_item_le stringLayout tables.strings.toList text htext
    rw [length_stringLayout] at hlayout
    omega
  · intro entry hentry
    have hlayout := length_item_le ClassEntry.layout tables.classes entry hentry
    exact fit_of_classLayout entry (by omega)

theorem length_signedPart (body : Bytes) : (signedPart body).length = 6 + body.length := by
  simp only [signedPart, List.length_append, length_lengthWord, length_word16]

theorem length_sealed (dialect : Dialect) (body : Bytes) :
    (sealed dialect (signedPart body)).length = headerLength + body.length := by
  simp only [sealed, headerLength, List.length_append, length_magic, Digest.length_sha1,
    length_signedPart]
  omega

/-- Writing tables fails for their size alone. -/
theorem encode_eq_ok_iff (tables : Tables) (bytes : Bytes) :
    tables.encode = .ok bytes ↔ headerLength + tables.layout.length < 2 ^ 32 ∧
      bytes = sealed tables.dialect (signedPart tables.layout) := by
  have hoversize (hsize : headerLength + tables.layout.length < 2 ^ 32) :
      tables.oversize? = none := by
    have hfit := fit_of_layout tables (by omega)
    apply List.find?_eq_none.mpr
    intro extent hextent
    simpa using hfit extent hextent
  simp only [Tables.encode]
  constructor
  · intro h
    split at h
    · cases h
    · split at h
      · rename_i hsize
        cases h
        exact ⟨hsize, rfl⟩
      · cases h
  · rintro ⟨hsize, rfl⟩
    rw [hoversize hsize]
    exact if_pos hsize

theorem length_of_encode {tables : Tables} {bytes : Bytes} (h : tables.encode = .ok bytes) :
    bytes.length = headerLength + tables.layout.length := by
  obtain ⟨-, rfl⟩ := (encode_eq_ok_iff tables bytes).mp h
  exact length_sealed _ _

theorem drop_sealed (dialect : Dialect) (signed : Bytes) :
    (sealed dialect signed).drop 28 = signed := by
  apply List.drop_left'
  rw [List.length_append, length_magic, Digest.length_sha1]

/-- Reading accepts sealed layouts and nothing else. -/
theorem decode_eq_ok_iff (tables : Tables) (bytes : Bytes) :
    Tables.decode bytes = .ok tables ↔ headerLength + tables.layout.length < 2 ^ 32 ∧
      bytes = sealed tables.dialect (signedPart tables.layout) := by
  have hrun : Tables.decode bytes = .ok tables ↔
      ∃ c, (Tables.read bytes).run bytes = .ok (tables, c) := by
    unfold Tables.decode
    cases (Tables.read bytes).run bytes with
    | error e => simp
    | ok x =>
      obtain ⟨found, c⟩ := x
      simp
  rw [hrun, (tables_exact bytes).run_eq_ok_iff]
  constructor
  · rintro ⟨⟨hsize, -⟩, hbytes⟩
    have hlen := congrArg List.length hbytes
    simp only [List.length_append, length_magic, Digest.length_sha1, length_lengthWord,
      length_word16] at hlen
    have hheader : bytes.length = headerLength + tables.layout.length := by
      unfold headerLength
      omega
    have hsealed : bytes = tables.dialect.magic ++ Digest.sha1 (bytes.drop 28)
        ++ signedPart tables.layout := by
      simpa only [signedPart, hheader, List.append_assoc] using hbytes
    have hdrop : bytes.drop 28 = signedPart tables.layout := by
      have h := congrArg (List.drop 28) hsealed
      rwa [List.drop_left' (by rw [List.length_append, length_magic, Digest.length_sha1])] at h
    rw [hdrop] at hsealed
    exact ⟨by omega, hsealed⟩
  · rintro ⟨hsize, rfl⟩
    refine ⟨⟨?_, fit_of_layout tables (by omega)⟩, ?_⟩
    · rwa [length_sealed]
    · rw [drop_sealed, length_sealed]
      simp only [sealed, signedPart, List.append_assoc]

theorem length_lt_of_decode {bytes : Bytes} {tables : Tables}
    (h : Tables.decode bytes = .ok tables) : bytes.length < 2 ^ 32 := by
  obtain ⟨hsize, rfl⟩ := (decode_eq_ok_iff tables bytes).mp h
  rw [length_sealed]
  omega

/-- A byte string is a container of the tables exactly when it is their magic, a digest and the
signed part: its own length, the flags and the layout. So tables have one byte string at most,
and every byte of it is accounted for. -/
theorem decode_accepts_exactly_sealed_layout (bytes : Bytes) (tables : Tables) :
    (Tables.decode bytes = .ok tables ↔ bytes.length < 2 ^ 32 ∧ ∃ signed : Bytes,
      signed = lengthWord bytes.length ++ word16 0 ++ tables.layout ∧
      bytes = tables.dialect.magic ++ Digest.sha1 signed ++ signed) ∧
    ∀ other, Tables.decode bytes = .ok tables → Tables.decode other = .ok tables →
      other = bytes := by
  refine ⟨⟨?_, ?_⟩, ?_⟩
  · intro h
    obtain ⟨hsize, rfl⟩ := (decode_eq_ok_iff tables bytes).mp h
    rw [length_sealed]
    exact ⟨hsize, signedPart tables.layout, rfl, rfl⟩
  · rintro ⟨hsize, signed, hsigned, hbytes⟩
    have hlen := congrArg List.length hbytes
    rw [hsigned] at hlen
    simp only [List.length_append, length_magic, Digest.length_sha1, length_lengthWord,
      length_word16] at hlen
    have hheader : bytes.length = headerLength + tables.layout.length := by
      unfold headerLength
      omega
    have hpart : signed = signedPart tables.layout := by
      rw [hsigned, hheader]
      rfl
    apply (decode_eq_ok_iff tables bytes).mpr
    refine ⟨by omega, ?_⟩
    rw [hbytes, hpart]
    rfl
  · intro other h hother
    rw [((decode_eq_ok_iff tables bytes).mp h).2, ((decode_eq_ok_iff tables other).mp hother).2]

end LiveDex.Container
