import LiveDex.Bundle
import LiveDex.Container.Tables

/-!
From a bundle to tables. Each string and each type gets its index where it is first used, and
uses after the first share that index, which a map keeps at hand. A class uses its descriptor, its
superclass, its interfaces, its source file, then name and type of each field, then name and proto
of each method.
-/
namespace LiveDex.Container

theorem idxOf?_push {α : Type} [DecidableEq α] {values : Array α} {a : α} (ha : a ∉ values)
    (b : α) : (values.push a).idxOf? b = if b = a then some values.size else values.idxOf? b := by
  obtain ⟨items⟩ := values
  rw [List.mem_toArray, ← List.idxOf?_eq_none_iff] at ha
  simp only [List.push_toArray, List.idxOf?_toArray, List.size_toArray]
  unfold List.idxOf? at ha ⊢
  rw [List.findIdx?_append]
  by_cases hab : b = a
  · subst hab
    simp [ha]
  · have hne : (a == b) = false := beq_false_of_ne (Ne.symm hab)
    simp [hab, hne]

/-- Values in the order of their first uses, with a map from each to its index. The map finds what a
search through the values would find. -/
structure IndexedPool (α : Type) [DecidableEq α] where
  values : Array α
  indices : List (α × UInt32)
  lookup_indices : ∀ a, indices.lookup a = (values.idxOf? a).map Nat.toUInt32

namespace IndexedPool

variable {α : Type} [DecidableEq α] {pool : IndexedPool α} {a : α}

theorem lookup_eq_none_iff : pool.indices.lookup a = none ↔ a ∉ pool.values := by
  rw [pool.lookup_indices, Option.map_eq_none_iff, Array.idxOf?_eq_none_iff]

def empty : IndexedPool α where
  values := #[]
  indices := []
  lookup_indices _ := by simp

/-- Puts a new value at the end. -/
def add (pool : IndexedPool α) (a : α) (h : pool.indices.lookup a = none) : IndexedPool α where
  values := pool.values.push a
  indices := (a, pool.values.size.toUInt32) :: pool.indices
  lookup_indices b := by
    rw [idxOf?_push (lookup_eq_none_iff.mp h)]
    by_cases hab : b = a
    · simp [hab]
    · have hne : (b == a) = false := beq_false_of_ne hab
      simp [List.lookup_cons, hab, hne, pool.lookup_indices]

/-- The index of a value, which is put at the end if it is new. -/
def intern (pool : IndexedPool α) (a : α) : UInt32 × IndexedPool α :=
  match h : pool.indices.lookup a with
  | some index => (index, pool)
  | none => (pool.values.size.toUInt32, pool.add a h)

end IndexedPool

structure Interner where
  strings : IndexedPool String := .empty
  types : IndexedPool UInt32 := .empty

namespace Interner

def string (text : String) : StateM Interner UInt32 := fun pools =>
  let (index, strings) := pools.strings.intern text
  (index, { pools with strings })

/-- A type is known by the index of its descriptor among the strings. -/
def typeAt (descriptor : UInt32) : StateM Interner UInt32 := fun pools =>
  let (index, types) := pools.types.intern descriptor
  (index, { pools with types })

def type (descriptor : String) : StateM Interner UInt32 := do
  typeAt (← string descriptor)

def optional (intern : String → StateM Interner UInt32) : Option String → StateM Interner UInt32
  | some text => intern text
  | none => pure noIndex

def field (record : FieldRecord) : StateM Interner FieldEntry := do
  let name ← string record.name
  let typeIndex ← type record.typeDescriptor
  return ⟨name, typeIndex, record.accessFlags⟩

def method (record : MethodRecord) : StateM Interner MethodEntry := do
  let name ← string record.name
  let proto ← string record.proto
  return ⟨name, proto, record.accessFlags, record.code⟩

def classEntry (record : ClassRecord) : StateM Interner ClassEntry := do
  let typeIndex ← type record.descriptor
  let superclass ← optional type record.superclass
  let interfaces ← record.interfaces.mapM type
  let sourceFile ← optional string record.sourceFile
  let fields ← record.fields.mapM field
  let methods ← record.methods.mapM method
  return ⟨typeIndex, record.accessFlags, superclass, interfaces, sourceFile, fields, methods⟩

end Interner

def Tables.ofBundle (bundle : Bundle) : Tables :=
  let (classes, pools) := (bundle.classes.mapM Interner.classEntry).run {}
  ⟨bundle.dialect, pools.strings.values, pools.types.values, classes⟩

end LiveDex.Container
